import FailurePipeline.Text.Digits

/-!
# Network addresses

The written forms of IPv4 and IPv6 addresses, alone and with a port.
-/

namespace FailurePipeline

namespace Network

/-- A decimal number without needless zeros, at most 255. -/
def isOctet (cs : List Char) : Bool :=
  match Digits.ofDecimal? cs with
  | some n => cs.length ≤ 3 && n ≤ 255 && (cs.length == 1 || cs.head? != some '0')
  | none => false

def isIpv4 (cs : List Char) : Bool :=
  let parts := cs.splitOnP (· == '.')
  parts.length == 4 && parts.all isOctet

/-- The number that a part of a host spells: hexadecimal after `0x`, octal after another zero, else decimal. -/
def hostNumber? (part : List Char) : Option Nat :=
  let read (base : Nat) (digits : List Char) : Option Nat :=
    match digits.mapM Digits.hexValue? with
    | some ds => if ds.all (· < base) then some (Digits.ofDigits base ds) else none
    | none => none
  match part with
  | [] => none
  | '0' :: 'x' :: digits | '0' :: 'X' :: digits => read 16 digits
  | '0' :: d :: digits => read 8 (d :: digits)
  | digits => read 10 digits

/-- The parts of a host between its dots; a dot at the end is left out. -/
def hostParts (host : List Char) : List (List Char) :=
  let parts := host.splitOnP (· == '.')
  if parts.getLast? = some [] then parts.dropLast else parts

/-- Whether a host has to be an IPv4 address, because its last part is a number. -/
def looksLikeIpv4 (host : List Char) : Bool :=
  match (hostParts host).getLast? with
  | some last => (hostNumber? last).isSome || !last.isEmpty && last.all Char.isDigit
  | none => false

/-- Whether the parts of a host spell an IPv4 address; the last part stands for all octets that are missing. -/
def isIpv4Host (host : List Char) : Bool :=
  match (hostParts host).mapM hostNumber? with
  | some numbers =>
    numbers.length ≤ 4 && numbers.dropLast.all (· ≤ 255) &&
      numbers.getLast?.any (· < Nat.pow 256 (5 - numbers.length))
  | none => false

/-- One to four hexadecimal digits. -/
def isGroup (cs : List Char) : Bool :=
  !cs.isEmpty && cs.length ≤ 4 && cs.all fun c => (Digits.hexValue? c).isSome

/-- How many groups a text with single colons spells.  The last may be an IPv4 address, which stands for two.
-/
def groups? (withIpv4 : Bool) (cs : List Char) : Option Nat :=
  if cs.isEmpty then some 0
  else
    let parts := cs.splitOnP (· == ':')
    if parts.all isGroup then some parts.length
    else if withIpv4 && parts.dropLast.all isGroup && parts.getLast?.any isIpv4 then some (parts.length + 1)
    else none

/-- The text before the first two colons in a row, and the text after them. -/
def cut? : List Char → Option (List Char × List Char)
  | ':' :: ':' :: rest => some ([], rest)
  | c :: rest => (cut? rest).map fun (before, after) => (c :: before, after)
  | [] => none

/-- Eight groups, or at most seven and two colons in a row for the missing ones. -/
def isIpv6 (cs : List Char) : Bool :=
  match cut? cs with
  | none => groups? true cs == some 8
  | some (before, after) =>
    match groups? false before, groups? true after with
    | some m, some n => m + n ≤ 7
    | _, _ => false

/-- A decimal number below a bound; it may have leading zeros. -/
def isNumberBelow (bound : Nat) (cs : List Char) : Bool := (Digits.ofDecimal? cs).any (· < bound)

/-- An IPv6 address that may have a scope: `%` and a number. -/
def isScopedIpv6 (cs : List Char) : Bool :=
  match cs.dropWhile (· != '%') with
  | [] => isIpv6 cs
  | _ :: scope => isIpv6 (cs.takeWhile (· != '%')) && isNumberBelow 4294967296 scope

/-- An address and a port; an IPv6 address is in brackets. -/
def isSocketAddress (text : String) : Bool :=
  let reversed := text.toList.reverse
  let port := (reversed.takeWhile (· != ':')).reverse
  let host := (reversed.dropWhile (· != ':')).tail.reverse
  isNumberBelow 65536 port && reversed.contains ':' &&
    (isIpv4 host ||
      (host.head? == some '[' && host.getLast? == some ']' && 2 ≤ host.length &&
        isScopedIpv6 host.tail.dropLast))

end Network

end FailurePipeline
