import EpollChat.Chat.Attendance
import EpollChat.Chat.ClientTalk
import EpollChat.Chat.EndToEnd

/-! The server and any number of running clients, with the bytes under way between
them in both directions. A step is an event of the server or an event that the
poller of one client handles, in any order; a socket is given only bytes that are
under way to it. Every `send` takes the whole buffer: this is the chat on connections
where no buffer of a socket is ever full. A client whose behaviour is undefined goes on
as `Client.onReaderCall` says. -/

namespace EpollChat.Chat

open Cpp Framing Utils Net

/-! ### Reading from a socket -/

/-- All that `read` returned before it returned no data. -/
def readBytes : List ReadResult → Bytes
  | .data chunk :: reads => chunk ++ readBytes reads
  | _ => []

/-- In the end `read` returns no data. -/
def Finishes : List ReadResult → Prop
  | [] => False
  | .data _ :: reads => Finishes reads
  | _ :: _ => True

instance decidableFinishes : (reads : List ReadResult) → Decidable (Finishes reads)
  | [] => isFalse id
  | .data _ :: reads => decidableFinishes reads
  | .endOfFile :: _ => isTrue trivial
  | .eagain :: _ => isTrue trivial
  | .error :: _ => isTrue trivial

/-- Either all that was read is passed on, or the connection has ended. -/
theorem passed_or_readsEnd {reads : List ReadResult} (h : Finishes reads) :
    passed reads = readBytes reads ∨ (passed reads = [] ∧ ReadsEnd reads) := by
  suffices ∀ buffer, TcpSocket.onInLoop buffer reads =
        (if (buffer ++ readBytes reads).isEmpty then none else some (.onDataReceived (buffer ++ readBytes reads))) ∨
      TcpSocket.onInLoop buffer reads = some .onClosed ∨ TcpSocket.onInLoop buffer reads = some .onError by
    unfold passed ReadsEnd
    rcases this [] with hr | hr | hr
    · left
      rw [TcpSocket.onIn, hr, List.nil_append]
      by_cases hempty : (readBytes reads).isEmpty
      · rw [if_pos hempty, List.isEmpty_iff.mp hempty]
      · rw [if_neg hempty]
    · exact .inr ⟨by rw [TcpSocket.onIn, hr], .inl hr⟩
    · exact .inr ⟨by rw [TcpSocket.onIn, hr], .inr hr⟩
  induction reads with
  | nil => exact absurd h id
  | cons r reads ih =>
    intro buffer
    cases r with
    | data chunk =>
      have hrest := ih h (buffer ++ chunk)
      rwa [List.append_assoc] at hrest
    | endOfFile => exact .inr (.inl rfl)
    | error => exact .inr (.inr rfl)
    | eagain =>
      left
      rw [readBytes, List.append_nil]
      · rfl
      · exact nofun

/-! ### The room that the observer keeps -/

/-- What one of those who speak says. -/
def textsBy {κ τ : Type} [DecidableEq κ] (who : κ) (talk : List (κ × τ)) : List τ :=
  (talk.filter fun x => x.1 = who).map Prod.snd

theorem textsBy_append {κ τ : Type} [DecidableEq κ] (who : κ) (talk more : List (κ × τ)) :
    textsBy who (talk ++ more) = textsBy who talk ++ textsBy who more := by
  rw [textsBy, List.filter_append, List.map_append, textsBy, textsBy]

section
variable (limit : UInt64) (events : List Event)

theorem Room.talk_says {κ τ : Type} (h : List (Room.Happening κ τ)) (who : κ) (whats : List τ) :
    Room.talk (h ++ whats.map (.say who)) = Room.talk h ++ whats.map fun what => (who, what) := by
  rw [Room.talk, Room.talk, List.filterMap_append, List.filterMap_map]
  congr 1
  exact congrFun List.filterMap_eq_map whats

theorem Room.Orderly.say_all {κ τ : Type} [DecidableEq κ] {h : List (Room.Happening κ τ)} (hh : Room.Orderly h)
    {who : κ} (hw : who ∈ Room.members h) (whats : List τ) : Room.Orderly (h ++ whats.map (.say who)) := by
  induction whats generalizing h with
  | nil => simpa using hh
  | cons what whats ih =>
    rw [List.map_cons, List.append_cons]
    refine ih (hh.concat fun who' he => ?_) (by rwa [Room.members_say])
    rwa [← Option.some.inj he]

theorem newTexts_append (stream data : Bytes) : textsOf (stream ++ data) = textsOf stream ++ newTexts stream data := by
  rw [newTexts_eq, textsOf_append, parseData_eq_drain]

/-- Only members speak, and what is said is what the byte streams of the members hold. -/
theorem talk_run : Room.Orderly (Observer.run limit events).history ∧
    ∀ c, (textsBy c (Room.talk (Observer.run limit events).history) = textsOf ((Observer.run limit events).received c)) ∧
      (c ∉ Room.joins (Observer.run limit events).history → (Observer.run limit events).received c = []) := by
  induction events using List.reverseRecOn with
  | nil => exact ⟨Room.orderly_nil, fun c => ⟨rfl, fun _ => rfl⟩⟩
  | append_singleton events e ih =>
    rw [Observer.run_concat]
    generalize Observer.run limit events = ob at *
    obtain ⟨horderly, htalk⟩ := ih
    have hleave (connection : Address) : Room.Orderly (ob.leave connection).history ∧
        ∀ c, textsBy c (Room.talk (ob.leave connection).history) = textsOf ((ob.leave connection).received c) ∧
          (c ∉ Room.joins (ob.leave connection).history → (ob.leave connection).received c = []) := by
      rw [Observer.leave]
      split
      · next hm =>
        refine ⟨horderly.concat fun who he => ?_, fun c => ?_⟩
        · rwa [← Option.some.inj he]
        · rw [Room.talk_leave, Room.joins_leave]
          exact htalk c
      · exact ⟨horderly, htalk⟩
    cases e with
    | newConnection socket =>
      rw [Observer.observe]
      dsimp only
      split
      · refine ⟨horderly.concat fun who he => absurd he (Option.not_mem_none who), fun c => ?_⟩
        rw [Room.talk_join, Room.joins_join]
        exact ⟨(htalk c).1, fun hc => (htalk c).2 fun hm => hc (List.mem_append_left _ hm)⟩
      · exact ⟨horderly, htalk⟩
    | dataReceived connection data =>
      rw [Observer.observe]
      split
      · next hm =>
        refine ⟨horderly.say_all hm _, fun c => ?_⟩
        dsimp only
        rw [Room.talk_says, Room.joins_says, textsBy_append, (htalk c).1]
        by_cases hc : connection = c
        · subst hc
          rw [Function.update_self, newTexts_append]
          refine ⟨by simp [textsBy, List.filter_map, Function.comp_def], fun hj => ?_⟩
          exact absurd ((Room.members_sublist _).subset hm) hj
        · rw [Function.update_of_ne (Ne.symm hc)]
          exact ⟨by simp [textsBy, List.filter_map, Function.comp_def, hc], (htalk c).2⟩
      · exact ⟨horderly, htalk⟩
    | closed connection => exact hleave connection
    | error connection => exact hleave connection

/-- Whoever has joined was given its nick name. -/
theorem accept_mem_effects {c : Address} (hc : c ∈ Room.joins (Observer.run limit events).history) :
    .accept c (Room.nickOf nickNameOf (Observer.run limit events).history c) ∈ (Session.run limit events).effects := by
  induction events using List.reverseRecOn with
  | nil => cases hc
  | append_singleton events e ih =>
    have h := Refines.run limit events
    rw [Observer.run_concat] at hc ⊢
    rw [Session.run_concat]
    generalize hs : Session.run limit events = s at *
    generalize ho : Observer.run limit events = ob at *
    have hstepped := Session.step_stepped s e
    generalize s.step e = s' at *
    cases hstepped with
    | refused socket hfull =>
      rw [← List.length_map ServerConnection.self, h.live, h.limit_eq] at hfull
      rw [Observer.observe, if_neg (Nat.not_lt.mpr hfull)] at hc ⊢
      exact List.mem_append_left _ (ih hc)
    | accepted socket server hroom hserver =>
      rw [← List.length_map ServerConnection.self, h.live, h.limit_eq] at hroom
      rw [Observer.observe, if_pos hroom] at hc ⊢
      have hnew : ob.arrivals ∉ Room.joins ob.history := fun hm => Nat.lt_irrefl _ (h.joined _ hm)
      rw [Room.joins_join, List.mem_append, List.mem_singleton] at hc
      rcases hc with hc | rfl
      · rw [Room.nickOf_join hc]
        exact List.mem_append_left _ (ih hc)
      · rw [Room.nickOf_join_self hnew, ← h.arrivals, nickNameOf, UInt64.ofNat_add, ← h.counter]
        exact List.mem_append_right _ List.mem_cons_self
    | received d data hfind =>
      rw [Observer.observe, if_pos (h.member_live (Session.mem_of_find? hfind))] at hc ⊢
      rw [Room.joins_says] at hc
      rw [Room.nickOf_says]
      exact List.mem_append_left _ (ih hc)
    | left d e he hfind server hserver =>
      rw [Observer.observe_left limit ob he, Observer.leave, if_pos (h.member_live (Session.mem_of_find? hfind))] at hc ⊢
      rw [Room.joins_leave] at hc
      rw [Room.nickOf_leave]
      exact List.mem_append_left _ (ih hc)
    | ignored connection e he hfind =>
      have hmem : connection ∉ Room.members ob.history := by
        rw [← h.live]
        exact Session.not_mem_of_find? hfind
      have hsame : ob.observe limit e = ob := by
        rcases he with ⟨data, rfl⟩ | rfl | rfl
        · rw [Observer.observe, if_neg hmem]
        · rw [Observer.observe, Observer.leave, if_neg hmem]
        · rw [Observer.observe, Observer.leave, if_neg hmem]
      rw [hsame] at hc ⊢
      exact ih hc

end

/-! ### The system -/

/-- What the reader gives to `OnMessageRead` has no null byte. -/
theorem separator_not_mem_entered {reads : List ReadResult} {message : Bytes} (h : message ∈ entered reads) :
    separator ∉ message := by
  suffices ∀ buffer, 0 ∉ buffer → ∀ message, Cli.StdInputReader.onInLoop buffer reads = some (.onMessageRead message) →
      0 ∉ message by
    unfold entered at h
    cases hcall : Cli.StdInputReader.onIn reads with
    | none => simp [hcall] at h
    | some call =>
      cases call with
      | onMessageRead m =>
        simp only [hcall, List.mem_singleton] at h
        subst h
        exact this [] List.not_mem_nil _ hcall
      | onReaderClosed => simp [hcall] at h
      | popBackOfEmpty =>
        simp only [hcall, List.mem_singleton] at h
        exact h ▸ List.not_mem_nil
  clear h
  induction reads with
  | nil => exact nofun
  | cons r reads ih =>
    intro buffer hbuffer message hcall
    cases r with
    | data chunk =>
      refine ih _ ?_ message hcall
      rw [List.mem_append, not_or]
      exact ⟨hbuffer, fun h0 => by simpa using List.mem_takeWhile_imp h0⟩
    | endOfFile => cases hcall
    | error => cases hcall
    | eagain =>
      rw [Cli.StdInputReader.onInLoop] at hcall
      split at hcall
      · cases hcall
      · cases hcall
        exact fun h0 => hbuffer ((List.dropLast_sublist buffer).subset h0)

namespace Client

def phase (w : Client) : Phase :=
  match w.clientConnection with
  | none => .closed
  | some c => if c.socket.connected then .connected else .connecting

theorem At.phase_eq {o : ClientObjects} {p : Phase} {w : Client} (h : At o p w) : w.phase = p := by
  cases p with
  | connecting => obtain ⟨data, hc⟩ := h.connecting; simp [phase, hc]
  | connected => obtain ⟨data, hc⟩ := h.connected; simp [phase, hc]
  | closed => rw [phase, h.closed]

end Client

/-- The bytes of some texts sent to the server. -/
def uplink (texts : List Bytes) : Bytes := texts.flatMap fun text => (Message.textMessageToServer text).build

/-- The number of a connection is that of the client from which it comes. `toServer` are
the bytes of a client that its connection on the server has not been given: they are
under way, or the server's socket has read them and dropped them as it closed. `toClient`
are the bytes for a client that its socket has not read. -/
structure Conversation where
  session : Session
  client : Address → Client
  toServer : Address → Bytes
  toClient : Address → Bytes

namespace Conversation

inductive Act where
  | server (e : Event)
  | client (c : Address) (ev : EpollEvent ClientAnswers)

variable (o : Address → ClientObjects)

def init (limit : UInt64) : Conversation := ⟨.init limit, fun c => .start (o c), fun _ => [], fun _ => []⟩

/-- What the socket of a client takes from the bytes under way to it. -/
def takes (n : Conversation) (c : Address) (ev : EpollEvent ClientAnswers) : Bytes :=
  if (n.client c).phase.ReadsSocket (o c) ev then readBytes ev.answers.reads else []

/-- A socket that is read gives the next bytes under way to it, and returns. -/
def Enabled (n : Conversation) : Act → Prop
  | .server (.dataReceived c data) => (n.session.find? c).isSome ∧ data <+: n.toServer c
  | .server _ => True
  | .client c ev => n.takes o c ev <+: n.toClient c ∧
      ((n.client c).phase.ReadsSocket (o c) ev → Finishes ev.answers.reads)

instance (n : Conversation) : (a : Act) → Decidable (n.Enabled o a)
  | .server (.dataReceived _ _) => inferInstanceAs (Decidable (_ ∧ _))
  | .server (.newConnection _) => isTrue trivial
  | .server (.closed _) => isTrue trivial
  | .server (.error _) => isTrue trivial
  | .client _ _ => inferInstanceAs (Decidable (_ ∧ (_ → _)))

/-- Each message that is sent is put under way whole: `TcpSocket::SendData` would drop
what a `send` does not take, and here every `send` takes all. -/
def next (n : Conversation) : Act → Conversation
  | .server e =>
    let session := n.session.step e
    { n with
      session := session
      toServer := match e with
        | .dataReceived c data => Function.update n.toServer c ((n.toServer c).drop data.length)
        | _ => n.toServer
      toClient := fun c =>
        n.toClient c ++ (sentTo c (session.effects.drop n.session.effects.length)).flatMap Message.build }
  | .client c ev =>
    let w := Client.process.notifySubscriber ev (n.client c)
    { n with
      client := Function.update n.client c w
      toServer := Function.update n.toServer c
        (n.toServer c ++ uplink (sentTexts (w.calls.drop (n.client c).calls.length)))
      toClient := Function.update n.toClient c ((n.toClient c).drop (n.takes o c ev).length) }

/-- The states that some steps lead to, while every `send` takes the whole buffer. -/
inductive Reachable (limit : UInt64) : Conversation → Prop
  | init : Reachable limit (init o limit)
  | next {n : Conversation} {a : Act} (h : Reachable limit n) (ha : n.Enabled o a) : Reachable limit (n.next o a)

/-- The steps are possible one after the other. -/
def Possible (n : Conversation) : List Act → Prop
  | [] => True
  | a :: acts => n.Enabled o a ∧ (n.next o a).Possible acts

instance decidablePossible (n : Conversation) : (acts : List Act) → Decidable (n.Possible o acts)
  | [] => isTrue trivial
  | a :: acts =>
    have := decidablePossible (n.next o a) acts
    inferInstanceAs (Decidable (_ ∧ _))

theorem Reachable.after {limit : UInt64} {n : Conversation} (h : Reachable o limit n) {acts : List Act}
    (hacts : n.Possible o acts) : Reachable o limit (acts.foldl (Conversation.next o) n) := by
  induction acts generalizing n with
  | nil => exact h
  | cons a acts ih => exact ih (h.next hacts.1) hacts.2

/-- What the bytes under way have to do with what the server and the clients have done. -/
structure Sound (limit : UInt64) (events : List Event) (n : Conversation) : Prop where
  session : n.session = Session.run limit events
  phase : ∀ c, Client.At (o c) (n.client c).phase (n.client c)
  shows : ∀ c, Shows (n.client c).calls
  clean : ∀ c, ∀ text ∈ sentTexts (n.client c).calls, separator ∉ text
  upstream : ∀ c, (Observer.run limit events).received c ++ n.toServer c = uplink (sentTexts (n.client c).calls)
  downstream : ∀ c, ∃ read lost, read ++ lost ++ n.toClient c = (sentTo c n.session.effects).flatMap Message.build ∧
    (n.client c).Heard read ∧ ((n.client c).phase ≠ .closed → lost = [])

variable {o} {limit : UInt64} {events : List Event} {n : Conversation}

theorem sound_init (limit : UInt64) : Sound o limit [] (init o limit) where
  session := rfl
  phase c := Client.at_start (o c)
  shows _ := ⟨rfl, rfl⟩
  clean _ := nofun
  upstream _ := rfl
  downstream c := ⟨[], [], rfl, Client.heard_start (o c), fun _ => rfl⟩

theorem Sound.next_server (h : Sound o limit events n) {e : Event} (he : n.Enabled o (.server e)) :
    Sound o limit (events ++ [e]) (n.next o (.server e)) := by
  have hsession : (n.next o (.server e)).session = Session.run limit (events ++ [e]) := by
    rw [Session.run_concat, ← h.session]
    rfl
  refine ⟨hsession, h.phase, h.shows, h.clean, fun c => ?_, fun c => ?_⟩
  · rw [Observer.run_concat]
    have hleave (connection : Address) :
        ((Observer.run limit events).leave connection).received c = (Observer.run limit events).received c := by
      rw [Observer.leave]
      split <;> rfl
    cases e with
    | newConnection socket => exact h.upstream c
    | closed connection =>
      rw [Observer.observe, hleave]
      exact h.upstream c
    | error connection =>
      rw [Observer.observe, hleave]
      exact h.upstream c
    | dataReceived connection data =>
      obtain ⟨hlive, rest, hrest⟩ := he
      have hmember : connection ∈ Room.members (Observer.run limit events).history := by
        obtain ⟨d, hd⟩ := Option.isSome_iff_exists.mp hlive
        rw [h.session] at hd
        rw [← Session.self_of_find? hd]
        exact (Refines.run limit events).member_live (Session.mem_of_find? hd)
      rw [Observer.observe, if_pos hmember]
      dsimp only [Conversation.next]
      rw [← h.upstream c]
      by_cases hc : c = connection
      · subst hc
        rw [Function.update_self, Function.update_self, ← hrest, List.drop_left, List.append_assoc]
      · rw [Function.update_of_ne hc, Function.update_of_ne hc]
  · obtain ⟨read, lost, hstream, hheard, hlost⟩ := h.downstream c
    obtain ⟨more, hmore⟩ := (Session.step_stepped n.session e).effects_append
    refine ⟨read, lost, ?_, hheard, hlost⟩
    dsimp only [Conversation.next]
    rw [hmore, List.drop_left, sentTo_append, List.flatMap_append, ← hstream]
    simp only [List.append_assoc]

/-- A client that reads its socket hears it all, or has closed it. -/
theorem Sound.reads (h : Sound o limit events n) {c : Address} {ev : EpollEvent ClientAnswers}
    (he : n.Enabled o (.client c ev)) :
    ∃ read lost, read ++ lost ++ (n.toClient c).drop (n.takes o c ev).length =
        (sentTo c n.session.effects).flatMap Message.build ∧
      (Client.process.notifySubscriber ev (n.client c)).Heard read ∧
      ((n.client c).phase.next (o c) ev ≠ .closed → lost = []) := by
  obtain ⟨⟨rest, hrest⟩, hfinishes⟩ := he
  obtain ⟨read, lost, hstream, hheard, hlost⟩ := h.downstream c
  have hhears := (Client.talks_event (h.phase c) ev).heard read hheard
  rw [← hstream, ← hrest, List.drop_left]
  by_cases hr : (n.client c).phase.ReadsSocket (o c) ev
  · have htakes : n.takes o c ev = readBytes ev.answers.reads := if_pos hr
    rw [Phase.given, if_pos hr] at hhears
    rw [hlost hr.1, List.append_nil, htakes]
    rcases passed_or_readsEnd (hfinishes hr) with hpassed | ⟨hpassed, hends⟩
    · exact ⟨_, [], by rw [hpassed, List.append_nil, List.append_assoc], hhears, fun _ => rfl⟩
    · -- what was read is lost, but the client is closed
      rw [hpassed, List.append_nil] at hhears
      refine ⟨read, readBytes ev.answers.reads, List.append_assoc .., hhears, fun hopen => absurd ?_ hopen⟩
      have hfd : ev.fd ≠ Cli.stdinFileno := fun hfd => (Client.At.descriptors (o c)).2.1 (hr.2.1.symm.trans hfd)
      rw [Phase.next, if_neg hr.1, if_neg hfd, if_pos hr.2.1, if_neg hr.2.2.2, if_pos (.inl ⟨hr.2.2.1, hends⟩)]
  · have htakes : n.takes o c ev = [] := if_neg hr
    rw [Phase.given, if_neg hr, List.append_nil] at hhears
    rw [htakes, List.nil_append]
    refine ⟨read, lost, rfl, hhears, fun hopen => hlost fun hclosed => hopen ?_⟩
    rw [hclosed]
    exact if_pos rfl

theorem Sound.next_client (h : Sound o limit events n) {c : Address} {ev : EpollEvent ClientAnswers}
    (he : n.Enabled o (.client c ev)) : Sound o limit events (n.next o (.client c ev)) := by
  have hreached := (Client.moves_event (h.phase c) ev).reached
  have hreads := h.reads he
  have hphase := hreached.phase_eq
  rw [← hphase] at hreads
  rw [← hphase] at hreached
  obtain ⟨-, new, hcalls, hsent, hshows⟩ := Client.talks_event (h.phase c) ev
  have hclean : ∀ text ∈ (n.client c).phase.sends ev, separator ∉ text := by
    unfold Phase.sends
    split
    · exact fun text => separator_not_mem_entered
    · exact nofun
  refine ⟨h.session, fun d => ?_, fun d => ?_, fun d => ?_, fun d => ?_, fun d => ?_⟩
  all_goals
    dsimp only [Conversation.next]
    by_cases hd : d = c
  all_goals
    first
    | subst hd; simp only [Function.update_self]
    | simp only [Function.update_of_ne hd]
  · exact hreached
  · exact h.phase d
  · exact hcalls ▸ (h.shows d).append hshows
  · exact h.shows d
  · rw [hcalls, sentTexts_append, List.forall_mem_append, hsent]
    exact ⟨h.clean d, hclean⟩
  · exact h.clean d
  · rw [hcalls, List.drop_left, ← List.append_assoc, h.upstream d, sentTexts_append, uplink, uplink, uplink,
      List.flatMap_append]
  · exact h.upstream d
  · exact hreads
  · exact h.downstream d

theorem Reachable.sound (h : Reachable o limit n) : ∃ events, Sound o limit events n := by
  induction h with
  | init => exact ⟨[], sound_init limit⟩
  | @next n a _ ha ih =>
    obtain ⟨events, hs⟩ := ih
    cases a with
    | server e => exact ⟨_, hs.next_server ha⟩
    | client c ev => exact ⟨_, hs.next_client ha⟩

end Conversation

end EpollChat.Chat
