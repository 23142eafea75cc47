import LinearArith.Odometer
import LinearArith.Scenario

/-! The scenarios of a list of option lists: one option is picked from each list, the first list
varying slowest. Picks with a statically false member and scenarios met before are passed over. The
enumeration is lazy: an odometer shows the pick to be looked at next. -/

namespace LinearArith

/-- A scenario with the rank of the first pick that gives it. -/
structure IndexedScenario where
  index : Nat
  scenario : Scenario
  deriving DecidableEq

structure Enumeration where
  lists : List (List Constraint)
  odometer : Option (Odometer Constraint)
  /-- How many picks have been looked at; also the rank of the next one. -/
  visited : Nat
  /-- How many of them had a statically false member. -/
  discarded : Nat
  /-- How many of the others gave a scenario met before. -/
  duplicates : Nat
  /-- The scenarios met, the latest first. -/
  seen : List Scenario

def Odometer.scenario (o : Odometer Constraint) : Scenario := SortedBy.ofList o.shown

namespace Enumeration

def ofLists (lists : List (List Constraint)) : Enumeration :=
  ⟨lists, Odometer.first? lists, 0, 0, 0, []⟩

/-- The largest size that is told apart from larger ones. -/
def maxSize : Nat := 18446744073709551615

/-- The number of picks, multiplied up without going past `maxSize`. -/
def spaceSize (e : Enumeration) : Nat := e.lists.foldl (fun n l => min (n * l.length) maxSize) 1

def remaining (e : Enumeration) : Nat := e.odometer.elim 0 Odometer.remaining

/-- The enumeration with the pick behind it that the odometer `o` shows. -/
def advance (o : Odometer Constraint) (e : Enumeration) : Enumeration :=
  { e with odometer := o.advance?, visited := e.visited + 1 }

theorem remaining_advance {o : Odometer Constraint} {e : Enumeration} (h : e.odometer = some o) :
    (e.advance o).remaining + 1 = e.remaining := by
  rw [remaining, remaining, h]
  exact (Odometer.remaining_eq o).symm

/-- The next scenario, and the enumeration after it. -/
def next (e : Enumeration) : Option IndexedScenario × Enumeration :=
  match h : e.odometer with
  | none => (none, e)
  | some o =>
    have : (e.advance o).remaining < e.remaining := by
      have := remaining_advance h; omega
    let s := o.scenario
    if s.hasStaticFalsehood then
      next { e.advance o with discarded := e.discarded + 1 }
    else if e.seen.contains s then
      next { e.advance o with duplicates := e.duplicates + 1 }
    else
      (some ⟨e.visited, s⟩, { e.advance o with seen := s :: e.seen })
termination_by e.remaining

theorem remaining_next_lt {e : Enumeration} {s : IndexedScenario} (h : e.next.1 = some s) :
    e.next.2.remaining < e.remaining := by
  fun_induction next e with
  | case1 e hn => cases h
  | case2 e o ho hlt s hs ih => exact Nat.lt_trans (ih h) hlt
  | case3 e o ho hlt s hs hseen ih => exact Nat.lt_trans (ih h) hlt
  | case4 e o ho hlt => exact hlt

def toList (e : Enumeration) : List IndexedScenario :=
  match h : e.next with
  | (none, _) => []
  | (some s, later) =>
    have : later.remaining < e.remaining := by
      have := remaining_next_lt (congrArg Prod.fst h); rwa [h] at this
    s :: toList later
termination_by e.remaining

end Enumeration
end LinearArith
