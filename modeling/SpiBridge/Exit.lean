import SpiBridge.Bridge.Basic
/-!
# Exits

A program that cannot go on ends with a code and one line of text: what it was
about to do, and what failed.
-/

namespace SpiBridge

structure Exit where
  code : Nat
  message : String
  deriving DecidableEq, Repr

namespace Exit

def failureCode : Nat := 1

def ofTransport (context : String) (error : TransportError) : Exit :=
  ⟨failureCode, s!"{context}: {error.message}"⟩

def ofFault (context : String) : Fault → Exit
  | .transport error => ofTransport context error
  | .clockRange => ⟨failureCode, s!"{context}: {Fault.clockRange.message}"⟩

end Exit

end SpiBridge
