import Mathlib.Data.Nat.Notation

/-! `utils::Exception`, the only exception the programs throw. The texts that come
from the C library are a parameter: `strerror` of an `errno`. -/

namespace EpollChat.Utils

abbrev Errno := ℕ

/-- What a system call returns: a value, or -1 with `errno`. -/
abbrev SysResult (α : Type) := Except Errno α

/-- Made from the two arguments of the constructor. -/
structure Exception where
  sourceError : String
  errorDescription : String
  deriving DecidableEq

def Exception.what (e : Exception) : String := e.sourceError ++ ": " ++ e.errorDescription

end EpollChat.Utils
