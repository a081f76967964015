import Deadwood.Text.Utf8
import Deadwood.Text.Quoted

/-!
Where and why bytes are not UTF-8, in the words of a message.
-/
namespace Deadwood.Utf8

structure Malformed where
  start : Nat
  first : UInt8
  length : Nat
  reason : String

/-- The first malformed piece from a place on; `skip` bytes belong to a piece already read. -/
def malformedFrom? (place skip : Nat) : Bytes → Option Malformed
  | [] => none
  | b :: rest =>
    match skip with
    | k + 1 => malformedFrom? (place + 1) k rest
    | 0 =>
      match firstPiece b rest with
      | (.scalar _, n) => malformedFrom? (place + 1) n rest
      | (.malformed, n) =>
        let reason :=
          if (tailLength? b).isNone then "invalid start byte"
          else if n == rest.length then "unexpected end of data"
          else "invalid continuation byte"
        some ⟨place, b, n + 1, reason⟩

def malformed? (source : Bytes) : Option Malformed :=
  malformedFrom? 0 0 source

def Malformed.message (m : Malformed) : Text :=
  let place : Text :=
    if m.length == 1 then
      "byte 0x" ++ Text.hexDigits 2 m.first.toNat ++ " in position " ++ Text.ofNat m.start
    else "bytes in position " ++ Text.ofNat m.start ++ "-" ++ Text.ofNat (m.start + m.length - 1)
  "'utf-8' codec can't decode " ++ place ++ ": " ++ Text.ofString m.reason

end Deadwood.Utf8
