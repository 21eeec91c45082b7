import Phrasebook.Json.Basic

/-!
Pages of a long list. Rows are either counted, or one row more than a page holds is read and the
count is taken to end with it, so that a further page shows only when there is one.
-/

namespace Phrasebook

/-- Pages are counted from one and hold at least one row. -/
structure PageRequest where
  page : Nat
  perPage : Nat
  fast : Bool
  deriving DecidableEq, Repr

namespace PageRequest

def make (page perPage : Nat) (fast : Bool) : PageRequest := ⟨max page 1, max perPage 1, fast⟩

/-- The number of rows before the page. -/
def offset (r : PageRequest) : Nat := (r.page - 1) * r.perPage

/-- The number of rows to read. -/
def fetchLimit (r : PageRequest) : Nat := if r.fast then r.perPage + 1 else r.perPage

end PageRequest

structure Page (α : Type) where
  items : List α
  page : Nat
  perPage : Nat
  count : Nat
  estimated : Bool

namespace Page

variable {α β : Type}

def exact (items : List α) (count : Nat) (r : PageRequest) : Page α :=
  ⟨items, r.page, r.perPage, count, false⟩

/-- The page from rows read up to the limit of the request. -/
def estimate (rows : List α) (r : PageRequest) : Page α :=
  ⟨rows.take r.perPage, r.page, r.perPage, r.offset + rows.length, true⟩

def map (f : α → β) (p : Page α) : Page β := { p with items := p.items.map f }

/-- An empty list still has one page. -/
def numPages (p : Page α) : Nat := if p.count = 0 then 1 else (p.count + p.perPage - 1) / p.perPage

def hasNext (p : Page α) : Bool := p.page < p.numPages

def toJson (encode : α → Json) (p : Page α) : Json :=
  .object [("items", .array (p.items.map encode)), ("page", .ofNat p.page),
    ("perPage", .ofNat p.perPage), ("count", .ofNat p.count), ("estimated", .bool p.estimated)]

end Page

end Phrasebook
