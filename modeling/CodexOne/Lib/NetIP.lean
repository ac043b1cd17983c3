import CodexOne.Lib.GoStrings
import Mathlib.Data.List.Basic

/-!
IP addresses and prefixes: Go's `net/netip`, and `net.SplitHostPort`.
-/

namespace CodexOne.NetIP

/-- `netip.Addr`. An address of the second kind has a zone, which may be empty. -/
inductive Addr where
  | v4 (bits : BitVec 32)
  | v6 (bits : BitVec 128) (zone : String)
  deriving DecidableEq

/-- `netip.Prefix`. -/
structure Prefix where
  addr : Addr
  bits : ℕ
  deriving DecidableEq

def octet (field : List Char) : Option ℕ :=
  let value := field.foldl (fun n c => 10 * n + (c.toNat - 48)) 0
  if field ≠ [] ∧ field.all Char.isDigit ∧ (field.length = 1 ∨ field.head? ≠ some '0') ∧
    value ≤ 255 then some value else none

/-- `parseIPv4Fields`. -/
def parseIPv4 (l : List Char) : Option ℕ :=
  match (l.splitOn '.').mapM octet with
  | some [a, b, c, d] => some (((a * 256 + b) * 256 + c) * 256 + d)
  | _ => none

def isHex (c : Char) : Bool := c.isDigit || ('a' ≤ c && c ≤ 'f') || ('A' ≤ c && c ≤ 'F')

def hexValue (c : Char) : ℕ :=
  if c.isDigit then c.toNat - 48 else if c ≤ 'F' then c.toNat - 55 else c.toNat - 87

/-- The loop of `parseIPv6`, with room for some more groups: the groups, the place of the ellipsis
among them, and the text that is left. -/
def parseGroups : (room : ℕ) → (groups : List ℕ) → (ellipsis : Option ℕ) → List Char →
    Option (List ℕ × Option ℕ × List Char)
  | 0, groups, ellipsis, s => some (groups, ellipsis, s)
  | room + 1, groups, ellipsis, s =>
    let digits := s.takeWhile isHex
    let value := digits.foldl (fun n c => 16 * n + hexValue c) 0
    if digits.length = 0 ∨ 4 < digits.length then none
    else match s.dropWhile isHex with
      | '.' :: _ =>
        -- the last two groups as a dotted address
        if (ellipsis = none ∧ groups.length ≠ 6) ∨ room = 0 then none
        else (parseIPv4 s).map fun v => (groups ++ [v / 2 ^ 16, v % 2 ^ 16], ellipsis, [])
      | [] => some (groups ++ [value], ellipsis, [])
      | [':'] => none
      | ':' :: ':' :: rest =>
        if ellipsis.isSome then none
        else if rest = [] then some (groups ++ [value], some (groups.length + 1), [])
        else parseGroups room (groups ++ [value]) (some (groups.length + 1)) rest
      | ':' :: rest => parseGroups room (groups ++ [value]) ellipsis rest
      | _ => none

def expand (groups : List ℕ) (ellipsis : Option ℕ) : Option (List ℕ) :=
  match ellipsis with
  | none => if groups.length < 8 then none else some groups
  | some i =>
    if groups.length < 8 then
      some (groups.take i ++ List.replicate (8 - groups.length) 0 ++ groups.drop i)
    else none

/-- `parseIPv6` after the zone has been cut off. -/
def parseIPv6 (s : List Char) (zone : String) : Option Addr :=
  let start := match s with
    | ':' :: ':' :: rest =>
      if rest = [] then some ([], some 0, []) else parseGroups 8 [] (some 0) rest
    | _ => parseGroups 8 [] none s
  match start with
  | some (groups, ellipsis, []) =>
    (expand groups ellipsis).map fun all =>
      .v6 (BitVec.ofNat 128 (all.foldl (fun n g => 2 ^ 16 * n + g) 0)) zone
  | _ => none

/-- `netip.ParseAddr`. -/
def parseAddr (s : String) : Option Addr :=
  match s.toList.find? fun c => c = '.' ∨ c = ':' ∨ c = '%' with
  | some '.' => (parseIPv4 s.toList).map fun v => .v4 (BitVec.ofNat 32 v)
  | some ':' =>
    match s.toList.span (· ≠ '%') with
    | (text, []) => parseIPv6 text ""
    -- a percent sign with no zone behind it
    | (_, [_]) => none
    | (text, _ :: zone) => parseIPv6 text (String.ofList zone)
  | _ => none

/-- The host of `net.SplitHostPort`. -/
def splitHost (hostport : String) : Option String :=
  let l := hostport.toList
  match l.reverse.span (· ≠ ':') with
  | (_, []) => none
  | (port, _ :: before) =>
    let port := port.reverse
    let before := before.reverse
    match before with
    | '[' :: inner =>
      match inner.span (· ≠ ']') with
      | (host, [']']) =>
        if host.contains '[' ∨ port.contains '[' ∨ port.contains ']' then none
        else some (String.ofList host)
      | _ => none
    | host =>
      if host.contains ':' ∨ l.contains '[' ∨ l.contains ']' then none
      else some (String.ofList host)

/-! ### Addresses -/

namespace Addr

def unmap : Addr → Addr
  | .v6 bits zone =>
    if bits.toNat / 2 ^ 32 = 0xffff then .v4 (bits.setWidth 32) else .v6 bits zone
  | a => a

def withZone (zone : String) : Addr → Addr
  | .v6 bits _ => .v6 bits zone
  | a => a

def dotted (bits : BitVec 32) : String :=
  GoStrings.join ([24, 16, 8, 0].map fun k => toString (bits.toNat / 2 ^ k % 256)) "."

def groups (bits : BitVec 128) : List ℕ :=
  [112, 96, 80, 64, 48, 32, 16, 0].map fun k => bits.toNat / 2 ^ k % 2 ^ 16

/-- The first of the longest runs of zeros, where it has two groups or more: where it starts and
how long it is. -/
def zeroRun (groups : List ℕ) : Option (ℕ × ℕ) :=
  (List.range 8).foldl (fun best i =>
    let length := ((groups.drop i).takeWhile (· = 0)).length
    if 2 ≤ length ∧ (best.all fun b => b.2 < length) then some (i, length) else best) none

def hexGroup (n : ℕ) : String := String.ofList (Nat.toDigits 16 n)

/-- `Addr.string6`. -/
def colons (bits : BitVec 128) : String :=
  let g := groups bits
  match zeroRun g with
  | some (start, length) =>
    GoStrings.join ((g.take start).map hexGroup) ":" ++ "::" ++
      GoStrings.join ((g.drop (start + length)).map hexGroup) ":"
  | none => GoStrings.join (g.map hexGroup) ":"

/-- `Addr.String`. -/
def string : Addr → String
  | .v4 bits => dotted bits
  | .v6 bits zone =>
    (if bits.toNat / 2 ^ 32 = 0xffff then "::ffff:" ++ dotted (bits.setWidth 32)
      else colons bits) ++
      if zone = "" then "" else "%" ++ zone

end Addr

/-- `Prefix.Contains`. -/
def Prefix.contains (p : Prefix) (a : Addr) : Bool :=
  match p.addr, a with
  | .v4 network, .v4 bits => p.bits ≤ 32 && (network ^^^ bits) >>> (32 - p.bits) == 0
  | .v6 network _, .v6 bits zone =>
    p.bits ≤ 128 && zone == "" && (network ^^^ bits) >>> (128 - p.bits) == 0
  | _, _ => false

end CodexOne.NetIP
