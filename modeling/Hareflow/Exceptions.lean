import Mathlib.Tactic.Common

/-!
# Response codes and exceptions

The exceptions of the library have `StreamException` as their base. `IOException` has a type of its
own beside the connection, since `handle_frames` tells it apart from the others, and so have the
exceptions of a call, which may also time out.
-/

namespace Hareflow

/-- `ResponseCode`: an enumeration over `std::uint16_t`. What the server sends is cast to it, so that
every number may occur. -/
structure ResponseCode where
  value : UInt16
  deriving DecidableEq, Repr

namespace ResponseCode

def ok : ResponseCode := ⟨0x01⟩

def streamDoesNotExist : ResponseCode := ⟨0x02⟩

def streamAlreadyExists : ResponseCode := ⟨0x05⟩

def streamNotAvailable : ResponseCode := ⟨0x06⟩

def saslMechanismNotSupported : ResponseCode := ⟨0x07⟩

def authenticationFailure : ResponseCode := ⟨0x08⟩

def saslError : ResponseCode := ⟨0x09⟩

def saslChallenge : ResponseCode := ⟨0x0a⟩

end ResponseCode

/-- The exceptions of the library, under the common `StreamException` base. -/
inductive StreamException
  /-- `InvalidInputException`. -/
  | invalidInput (what : String)
  /-- `ResponseErrorException`. -/
  | responseError (code : ResponseCode)
  /-- The base itself. -/
  | stream (what : String)
  deriving DecidableEq, Repr

end Hareflow
