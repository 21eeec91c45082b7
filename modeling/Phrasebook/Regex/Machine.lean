import Phrasebook.Regex.Classes
import Phrasebook.Regex.Hit
import Phrasebook.Regex.Program

/-!
The search machine. It reads the text once from left to right and follows all ways through a program
at the same time, in order of preference: of the hits that begin furthest left, the most preferred
is found.
-/

namespace Phrasebook.Regex

/-- The positions noted so far, two for each capture and two for the whole. -/
abbrev Slots := Array (Option Nat)

/-- The characters on both sides of a position. -/
structure Surroundings where
  before : Option Char
  after : Option Char

def isWord (unicode : Bool) (c : Option Char) : Bool :=
  match c with
  | some c => (CharSet.words unicode).has c.toNat
  | none => false

def Look.holds (s : Surroundings) : Look → Bool
  | textStart => s.before.isNone
  | textEnd => s.after.isNone
  | lineStart false => s.before.isNone || s.before == some '\n'
  | lineEnd false => s.after.isNone || s.after == some '\n'
  | lineStart true =>
    s.before.isNone || s.before == some '\n' || (s.before == some '\r' && s.after != some '\n')
  | lineEnd true =>
    s.after.isNone || s.after == some '\r' || (s.after == some '\n' && s.before != some '\r')
  | boundary u => isWord u s.before != isWord u s.after
  | notBoundary u => isWord u s.before == isWord u s.after
  | wordStart u => !isWord u s.before && isWord u s.after
  | wordEnd u => isWord u s.before && !isWord u s.after
  | wordStartHalf u => !isWord u s.before
  | wordEndHalf u => !isWord u s.after

/-- The ways that are being followed at a position: addresses of character tests and of fits, the
most preferred last. `seen` holds the addresses that were passed at this position. -/
structure Threads where
  seen : Array Bool
  list : List (Nat × Slots)

def Threads.none (size : Nat) : Threads := ⟨Array.replicate size false, []⟩

/-- Follows a way from an address through everything that takes no character. An address is passed
once only, so the length of a way is bounded by the size of the program, which is the fuel. -/
def follow (p : Program) (s : Surroundings) (position : Nat) :
    Nat → Nat → Slots → Threads → Threads
  | 0, _, _, ts => ts
  | fuel + 1, address, slots, ts =>
    if ts.seen[address]?.getD true then ts
    else
      let ts := { ts with seen := ts.seen.set! address true }
      match p[address]? with
      | some (.look l next) =>
        if l.holds s then follow p s position fuel next slots ts else ts
      | some (.save slot next) =>
        follow p s position fuel next (slots.set! slot (some position)) ts
      | some (.split first second) =>
        follow p s position fuel second slots (follow p s position fuel first slots ts)
      | _ => { ts with list := (address, slots) :: ts.list }

/-- Takes the character `c` in every way, in order of preference, up to the first fit. The result
holds the ways behind the character and the slots of the fit. -/
def advanceAll (p : Program) (c : Option Char) (s : Surroundings) (position : Nat) :
    List (Nat × Slots) → Threads → Threads × Option Slots
  | [], ts => (ts, Option.none)
  | (address, slots) :: more, ts =>
    match p[address]?, c with
    | some .fits, _ => (ts, some slots)
    | some (.char set next), some c =>
      let ts :=
        if set.has c.toNat then follow p s (position + 1) (p.size + 1) next slots ts else ts
      advanceAll p (some c) s position more ts
    | _, c => advanceAll p c s position more ts

/-- Reads on from a position. A new way is begun at every position until a fit is found. -/
def scan (p : Program) (start slotCount : Nat) :
    List Char → Nat → Option Char → Threads → Option Slots → Option Slots
  | rest, position, before, ts, best =>
    let here : Surroundings := ⟨before, rest.head?⟩
    let ts :=
      if best.isSome then ts
      else follow p here position (p.size + 1) start (Array.replicate slotCount Option.none) ts
    match rest with
    | [] =>
      match advanceAll p Option.none here position ts.list.reverse (.none p.size) with
      | (_, some slots) => some slots
      | (_, Option.none) => best
    | c :: more =>
      let ahead : Surroundings := ⟨some c, more.head?⟩
      let (ts, fit) := advanceAll p (some c) ahead position ts.list.reverse (.none p.size)
      let best := fit.or best
      if best.isSome ∧ ts.list.isEmpty then best
      else scan p start slotCount more (position + 1) (some c) ts best

def spanAt (slots : Slots) (index : Nat) : Option Span :=
  match slots[2 * index]?, slots[2 * index + 1]? with
  | some (some start), some (some stop) => some ⟨start, stop⟩
  | _, _ => none

/-- The first hit of an expression with `captures` captures, at or after a position. -/
def findFrom (p : Program) (start captures : Nat) (text : List Char) (position : Nat) :
    Option Hit :=
  if text.length < position then none
  else
    let before := if position = 0 then none else text[position - 1]?
    match scan p start (2 * captures + 2) (text.drop position) position before (.none p.size) none with
    | some slots =>
      (spanAt slots 0).map fun whole => ⟨whole, (List.range captures).map fun i => spanAt slots (i + 1)⟩
    | none => none

end Phrasebook.Regex
