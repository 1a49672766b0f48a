import EpollChat.Chat.ServerRun
import Mathlib.Data.List.Find

/-! The server knows its connections by their addresses only, and what it does does
not depend on which addresses these are: its functions commute with a renaming, if
this keeps the live connections apart. -/

namespace EpollChat.Chat

open Cpp Utils Net

def ServerConnection.rename (f : Address → Address) (c : ServerConnection) : ServerConnection :=
  { c with self := f c.self }

def Effect.rename (f : Address → Address) : Effect → Effect
  | .accept connection nickName => .accept (f connection) nickName
  | .send connection message => .send (f connection) message
  | .destroySocket socket => .destroySocket socket

theorem eraseP_congr {α : Type} {p q : α → Bool} {l : List α} (h : ∀ x ∈ l, p x = q x) : l.eraseP p = l.eraseP q := by
  induction l with
  | nil => rfl
  | cons x l ih =>
    rw [List.eraseP_cons, List.eraseP_cons, h x List.mem_cons_self, ih fun y hy => h y (List.mem_cons_of_mem x hy)]

namespace Server

def rename (f : Address → Address) (s : Server) : Server :=
  { s with incomingConnections := s.incomingConnections.map (ServerConnection.rename f) }

variable {f g : Address → Address} {s : Server}

/-- The live connections stay apart. -/
def Separates (f : Address → Address) (s : Server) : Prop :=
  ∀ c ∈ s.incomingConnections, ∀ d ∈ s.incomingConnections, f c.self = f d.self → c.self = d.self

theorem Separates.eq_iff (h : s.Separates f) {c d : ServerConnection} (hc : c ∈ s.incomingConnections)
    (hd : d ∈ s.incomingConnections) : f c.self = f d.self ↔ c.self = d.self := ⟨h c hc d hd, congrArg f⟩

theorem rename_congr (h : ∀ c ∈ s.incomingConnections, f c.self = g c.self) : s.rename f = s.rename g := by
  rw [rename, rename, List.map_congr_left]
  intro c hc
  rw [ServerConnection.rename, ServerConnection.rename, h c hc]

@[simp] theorem size_rename (f : Address → Address) (s : Server) : (s.rename f).size = s.size := by
  rw [size, size, rename, List.length_map]

theorem broadcast_rename (f : Address → Address) (connections : List ServerConnection) (message : Message) :
    broadcast (connections.map (ServerConnection.rename f)) message =
      (broadcast connections message).map (Effect.rename f) := by
  rw [broadcast, broadcast, List.map_map, List.map_map]
  rfl

theorem notifyServerInfo_rename (f : Address → Address) (s : Server) :
    (s.rename f).notifyServerInfo = s.notifyServerInfo.map (Effect.rename f) := by
  rw [notifyServerInfo_eq, notifyServerInfo_eq, size_rename]
  exact broadcast_rename f _ _

theorem notifyClientLeave_rename (f : Address → Address) (s : Server) (nickName : Bytes) :
    (s.rename f).notifyClientLeave nickName = (s.notifyClientLeave nickName).map (Effect.rename f) :=
  broadcast_rename f _ _

theorem onNewConnection_rename (f : Address → Address) (s : Server) (socket : TcpSocket) (self : Address) :
    (s.rename f).onNewConnection socket (f self) =
      ((s.onNewConnection socket self).1.rename f, (s.onNewConnection socket self).2.map (Effect.rename f)) := by
  have hlength : (s.rename f).incomingConnections.length = s.incomingConnections.length := List.length_map ..
  have hlimit : (s.rename f).incomingConnectionsLimit = s.incomingConnectionsLimit := rfl
  rw [onNewConnection, onNewConnection, hlength, hlimit]
  split
  · rfl
  · dsimp only
    rw [List.map_cons, ← notifyServerInfo_rename, rename, rename, List.map_append]
    rfl

theorem onTextMessage_rename (h : s.Separates f) {c : ServerConnection} (hc : c ∈ s.incomingConnections)
    (textMessage : Bytes) :
    (s.rename f).onTextMessage (c.rename f) textMessage = (s.onTextMessage c textMessage).map (Effect.rename f) := by
  have hothers : (s.rename f).incomingConnections.filter (fun it => it.self ≠ (c.rename f).self) =
      (s.incomingConnections.filter fun it => it.self ≠ c.self).map (ServerConnection.rename f) := by
    rw [rename, List.filter_map]
    refine congrArg (List.map _) (List.filter_congr fun d hd => ?_)
    simp only [Function.comp_apply, ServerConnection.rename, ne_eq, h.eq_iff hd hc]
  rw [onTextMessage_eq, onTextMessage_eq, hothers]
  exact broadcast_rename f _ _

theorem onCallback_rename (h : s.Separates f) {c : ServerConnection} (hc : c ∈ s.incomingConnections) (m : Message) :
    (s.rename f).onCallback (c.rename f) m = (s.onCallback c m).map (Effect.rename f) := by
  cases m with
  | textMessageToServer textMessage => exact onTextMessage_rename h hc textMessage
  | textMessageToClient nickName textMessage => rfl
  | clientLeaveMessage nickName => rfl
  | serverInfoMessage clientsCount => rfl

theorem setDataToParse_rename (h : s.Separates f) {c : ServerConnection} (hc : c ∈ s.incomingConnections)
    (data : DataBuffer) : (s.rename f).setDataToParse (f c.self) data = (s.setDataToParse c.self data).rename f := by
  simp only [setDataToParse, rename, List.map_map]
  congr 1
  refine List.map_congr_left fun d hd => ?_
  simp only [Function.comp_apply, ServerConnection.rename, h.eq_iff hd hc]
  split <;> rfl

theorem onDataReceived_rename (h : s.Separates f) {c : ServerConnection} (hc : c ∈ s.incomingConnections)
    (data : DataBuffer) :
    (s.rename f).onDataReceived (c.rename f) data =
      ((s.onDataReceived c data).1.rename f, (s.onDataReceived c data).2.map (Effect.rename f)) := by
  rw [onDataReceived, onDataReceived, List.map_flatMap, ← setDataToParse_rename h hc]
  exact Prod.ext rfl (List.flatMap_congr fun m _ => onCallback_rename h hc m)

/-- What is looked up by its new name is found if it is there by the old one. -/
theorem find?_rename (h : s.Separates f) {c : ServerConnection} (hc : c ∈ s.incomingConnections) :
    (s.rename f).incomingConnections.find? (fun it => it.self = f c.self) =
      (s.incomingConnections.find? fun it => it.self = c.self).map (ServerConnection.rename f) := by
  rw [rename, List.find?_map]
  refine congrArg (Option.map _) (List.find?_congr fun d hd => ?_)
  simp only [Function.comp_apply, ServerConnection.rename, h.eq_iff hd hc]

theorem eraseP_rename (h : s.Separates f) {c : ServerConnection} (hc : c ∈ s.incomingConnections) :
    (s.rename f).incomingConnections.eraseP (fun it => it.self = f c.self) =
      (s.incomingConnections.eraseP fun it => it.self = c.self).map (ServerConnection.rename f) := by
  rw [rename, List.eraseP_map]
  refine congrArg (List.map _) (eraseP_congr fun d hd => ?_)
  simp only [Function.comp_apply, ServerConnection.rename, h.eq_iff hd hc]

theorem onConnectionClosed_rename (h : s.Separates f) {c : ServerConnection} (hc : c ∈ s.incomingConnections) :
    (s.rename f).onConnectionClosed (f c.self) =
      (s.onConnectionClosed c.self).map fun r => (r.1.rename f, r.2.map (Effect.rename f)) := by
  rw [onConnectionClosed, onConnectionClosed, removeClient, removeClient, find?_rename h hc, eraseP_rename h hc]
  cases s.incomingConnections.find? fun it => it.self = c.self with
  | none => rfl
  | some removed =>
    simp only [Option.map_some, List.map_cons, List.map_append, ← notifyServerInfo_rename,
      ← notifyClientLeave_rename]
    rfl

/-- Only the connections that are left are told of one that is closed. -/
theorem onConnectionClosed_congr {connection : Address} {r : Server × List Effect}
    (hr : s.onConnectionClosed connection = some r) (h : ∀ c ∈ r.1.incomingConnections, f c.self = g c.self) :
    r.2.map (Effect.rename f) = r.2.map (Effect.rename g) := by
  rw [onConnectionClosed, removeClient] at hr
  split at hr
  · cases hr
  · cases hr
    simp only [List.map_cons, List.map_append, ← notifyServerInfo_rename, ← notifyClientLeave_rename, rename_congr h]
    rfl

end Server

end EpollChat.Chat
