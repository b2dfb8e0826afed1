import MetaCache.Number.LittleEndian
import MetaCache.Text.Hex
import MetaCache.Url.Error

/-!
# Numeric addresses

An IPv4 address is up to four numbers with dots between them, decimal, octal after a zero or
hexadecimal after `0x`; the last number fills all bytes that are left. A host whose last label is a
number is meant as an IPv4 address or is none at all.

An IPv6 address is eight pieces of four hexadecimal digits, of which one run of zeros may be left
out between two colons, and the last two may be written as an IPv4 address of four decimal numbers.
It is written back with the longest run of zeros left out.
-/

namespace MetaCache.Url

open MetaCache.Number MetaCache.Text

/-- A text cut at every `separator`. -/
def splitAt (separator : Char) : List Char → List (List Char)
  | [] => [[]]
  | c :: rest =>
    if c = separator then [] :: splitAt separator rest
    else
      match splitAt separator rest with
      | [] => [[c]]
      | part :: parts => (c :: part) :: parts

/-- The number that digits of a base stand for. -/
def numberOfBase? (base : Nat) (cs : List Char) : Option Nat :=
  cs.foldlM (fun n c => do
    let d ← hexValue? c
    if d.val < base then some (n * base + d.val) else none) 0

/-! ## IPv4 -/

/-- A number of an IPv4 address, of any size. -/
def ipv4Number? : List Char → Option Nat
  | [] => none
  | '0' :: 'x' :: digits | '0' :: 'X' :: digits => numberOfBase? 16 digits
  | '0' :: c :: digits => numberOfBase? 8 (c :: digits)
  | digits => numberOfBase? 10 digits

/-- The labels of a host without the empty one behind a last dot. -/
def labels (host : List Char) : List (List Char) :=
  match (splitAt '.' host).reverse with
  | [] :: others@(_ :: _) => others.reverse
  | reversed => reversed.reverse

/-- Whether the last label is a number, so that the host can only be an IPv4 address. -/
def endsInNumber (host : List Char) : Bool :=
  match (labels host).getLast? with
  | none => false
  | some [] => false
  | some label => label.all Char.isDigit || (ipv4Number? label).isSome

/-- The address whose bytes are `numbers`, the last number filling what is left. -/
def ipv4OfNumbers? (numbers : List Nat) : Option Nat :=
  match numbers.getLast? with
  | none => none
  | some last =>
    let front := numbers.dropLast
    if 3 < front.length ∨ capacity (4 - front.length) ≤ last ∨ front.any (fun n => 255 < n) then none
    else
      some (front.foldl (fun sum n => sum * 256 + n) 0 * capacity (4 - front.length) + last)

/-- Reads an IPv4 address as a number. -/
def readIpv4 (host : List Char) : Except AddressError Nat :=
  match (labels host).mapM ipv4Number? with
  | none => .error .invalidIpv4
  | some numbers =>
    match ipv4OfNumbers? numbers with
    | none => .error .invalidIpv4
    | some address => .ok address

/-- Four decimal numbers. -/
def ipv4Chars (address : Nat) : List Char :=
  ['.'].intercalate
    ((naturalBytes 4 address).reverse.map fun b => (Nat.repr b.toNat).toList)

/-! ## IPv6 -/

/-- One to four hexadecimal digits. -/
def piece? (cs : List Char) : Option Nat :=
  if cs.isEmpty || 4 < cs.length then none else numberOfBase? 16 cs

/-- A decimal number below 256 without a leading zero. -/
def byte? (cs : List Char) : Option Nat :=
  match cs with
  | [] => none
  | ['0'] => some 0
  | '0' :: _ => none
  | cs => (numberOfBase? 10 cs).filter (· < 256)

/-- The two pieces that four decimal numbers stand for. -/
def dottedPieces? (cs : List Char) : Option (List Nat) :=
  match splitAt '.' cs with
  | [a, b, c, d] => do
    return [(← byte? a) * 256 + (← byte? b), (← byte? c) * 256 + (← byte? d)]
  | _ => none

/-- The pieces of one side; only the last part of an address may be dotted. -/
def sidePieces? (isLast : Bool) : List (List Char) → Option (List Nat)
  | [] => some []
  | [part] =>
    if isLast && part.contains '.' then dottedPieces? part else (piece? part).map ([·])
  | part :: rest => do
    return (← piece? part) :: (← sidePieces? isLast rest)

/-- The parts before and behind a pair of colons, if there is one. -/
def splitAtGap (parts : List (List Char)) : List (List Char) × Option (List (List Char)) :=
  match parts with
  | [] :: [] :: rest => ([], some rest)
  | [] :: rest => ([] :: rest, none)
  | parts =>
    (parts.takeWhile (!·.isEmpty),
      match parts.dropWhile (!·.isEmpty) with
      | [] :: rest => some rest
      | _ => none)

/-- Reads an IPv6 address as eight pieces. -/
def readIpv6 (cs : List Char) : Except AddressError (List Nat) :=
  let read : Option (List Nat) :=
    match splitAtGap (splitAt ':' cs) with
    | (parts, none) => (sidePieces? true parts).filter (·.length = 8)
    | (_, some []) => none
    | (before, some behind) => do
      let behind := if behind = [[]] then [] else behind
      let left ← sidePieces? false before
      let right ← sidePieces? true behind
      let gap := 8 - (left.length + right.length)
      if left.length + right.length < 8 then some (left ++ List.replicate gap 0 ++ right) else none
  match read with
  | some pieces => .ok pieces
  | none => .error .invalidIpv6

/-- The length of the run of zeros at the front. -/
def zeroRun (pieces : List Nat) : Nat := (pieces.takeWhile (· = 0)).length

/-- The first of the longest runs of zeros: where it begins and how long it is. -/
def longestRun (pieces : List Nat) : Nat × Nat :=
  (List.range pieces.length).foldl
    (fun best start =>
      let run := zeroRun (pieces.drop start)
      if best.2 < run then (start, run) else best) (0, 0)

/-- Eight pieces with a run of at least two zeros left out. -/
def ipv6Chars (pieces : List Nat) : List Char :=
  let side (pieces : List Nat) : List Char := [':'].intercalate (pieces.map hexDigits)
  let (start, run) := longestRun pieces
  if run < 2 then side pieces
  else side (pieces.take start) ++ [':', ':'] ++ side (pieces.drop (start + run))

end MetaCache.Url
