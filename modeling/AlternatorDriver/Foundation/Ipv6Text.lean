import AlternatorDriver.Foundation.Text

/-!
# IPv6 addresses in text

Which texts a standard library reads as an IPv6 address: eight groups of hexadecimal
digits, a run of them abbreviated by `::`, the last two possibly in IPv4 form. The
reader returns what is left of the text, since only acceptance matters here.
-/

namespace Foundation

namespace Ipv6Text

def digitValue (c : Char) : Nat :=
  if c.isDigit then c.toNat - '0'.toNat
  else if 'a' ≤ c ∧ c ≤ 'f' then c.toNat - 'a'.toNat + 10
  else if 'A' ≤ c ∧ c ≤ 'F' then c.toNat - 'A'.toNat + 10
  else 16

/-- Reads a number of at most `maxDigits` digits that does not exceed `maxValue`. -/
def readNumber (radix maxDigits maxValue : Nat) (allowZeroPrefix : Bool) (text : Text) :
    Option Text :=
  let digits := text.takeWhile fun c => digitValue c < radix
  let value := digits.foldl (fun value c => value * radix + digitValue c) 0
  if digits.isEmpty || maxDigits < digits.length || maxValue < value then none
  else if !allowZeroPrefix && digits.head? == some '0' && 1 < digits.length then none
  else some (text.drop digits.length)

def readGivenChar (given : Char) : Text → Option Text
  | c :: text => if c = given then some text else none
  | [] => none

/-- A separator comes before every part but the first. -/
def readSeparator (separator : Char) (index : Nat) (inner : Text → Option Text) (text : Text) :
    Option Text :=
  if index = 0 then inner text else (readGivenChar separator text).bind inner

def readIpv4Addr (text : Text) : Option Text :=
  (List.range 4).foldl
    (fun rest index => rest.bind (readSeparator '.' index (readNumber 10 3 255 false))) (some text)

/-- Reads groups while `remaining` of them fit: how many there were, whether they ended
with an IPv4 part, and the rest of the text. -/
def readGroups : (remaining index : Nat) → Text → Nat × Bool × Text
  | 0, index, text => (index, false, text)
  | remaining + 1, index, text =>
      match (if 0 < remaining then readSeparator ':' index readIpv4Addr text else none) with
      | some rest => (index + 2, true, rest)
      | none =>
          match readSeparator ':' index (readNumber 16 4 65535 true) text with
          | some rest => readGroups remaining (index + 1) rest
          | none => (index, false, text)

def isIpv6Addr (text : Text) : Bool :=
  match readGroups 8 0 text with
  | (headSize, headIpv4, rest) =>
      if headSize = 8 then rest.isEmpty
      else if headIpv4 then false
      else match (readGivenChar ':' rest).bind (readGivenChar ':') with
        | none => false
        | some rest => (readGroups (8 - (headSize + 1)) 0 rest).2.2.isEmpty

example : isIpv6Addr "::1".toList = true := by decide
example : isIpv6Addr "fe80::1%1".toList = false := by decide
example : isIpv6Addr "::ffff:127.0.0.1".toList = true := by decide

end Ipv6Text

end Foundation
