import Mathlib.Logic.Function.Basic

/-!
# Shared ownership

Objects at addresses, each with the number of its owners. An owner may share what it owns and may
give it up; the last one to give it up destroys the object, and after that its address may be used
for another one.

The numbers are right if they count who says that it owns the address (`Counts`). Then what is owned
is there, and an address is not used again while somebody owns it: two owners of one address own one
object.
-/

namespace Shared

open Function

universe u v

variable {α : Type u} {ω : Type v}

/-- An object and the number of its owners. With none left it is being destroyed. -/
structure Cell (ω : Type v) where
  object : ω
  owners : Nat

/-- What stands at the addresses. -/
abbrev Heap (α : Type u) (ω : Type v) := α → Option (Cell ω)

section
variable [DecidableEq α]

/-- A new object, with one owner. -/
def make (h : Heap α ω) (a : α) (object : ω) : Option (Heap α ω) :=
  match h a with
  | none => some (update h a (some { object, owners := 1 }))
  | some _ => none

/-- One more owner. -/
def share (h : Heap α ω) (a : α) : Heap α ω :=
  update h a ((h a).map fun cell => { cell with owners := cell.owners + 1 })

/-- One owner less. -/
def giveUp (h : Heap α ω) (a : α) : Heap α ω :=
  update h a ((h a).map fun cell => { cell with owners := cell.owners - 1 })

/-- The cell is given back. -/
def free (h : Heap α ω) (a : α) : Heap α ω := update h a none

/-- The object is replaced, with its owners as they were. -/
def put (h : Heap α ω) (a : α) (object : ω) : Heap α ω :=
  update h a ((h a).map fun cell => { cell with object })

end

/-- The objects, without their numbers of owners. -/
def objects (h : Heap α ω) (a : α) : Option ω := (h a).map Cell.object

/-- An address has an object when its cell is there and holds it. -/
theorem objects_eq_some {h : Heap α ω} {a : α} {object : ω} :
    objects h a = some object ↔ ∃ cell, h a = some cell ∧ cell.object = object :=
  Option.map_eq_some_iff

section
variable [DecidableEq α] {h h' : Heap α ω} {a : α} {object : ω}

/-- Updating a cell updates the object at that address. -/
theorem objects_update (cell : Option (Cell ω)) :
    objects (update h a cell) = update (objects h) a (cell.map Cell.object) := by
  funext b
  rcases eq_or_ne b a with rfl | hne
  · rw [objects, update_self, update_self]
  · rw [objects, update_of_ne hne, update_of_ne hne, objects]

/-- Making an object puts it at a free address. -/
theorem objects_make (hmake : make h a object = some h') :
    h a = none ∧ objects h' = update (objects h) a (some object) := by
  unfold make at hmake
  split at hmake
  next ha =>
    cases hmake
    exact ⟨ha, objects_update _⟩
  next => cases hmake

/-- Sharing changes no object. -/
@[simp] theorem objects_share : objects (share h a) = objects h := by
  rw [share, objects_update, Option.map_map]
  exact update_eq_self a (objects h)

/-- Nor does giving up. -/
@[simp] theorem objects_giveUp : objects (giveUp h a) = objects h := by
  rw [giveUp, objects_update, Option.map_map]
  exact update_eq_self a (objects h)

/-- Freeing takes the object away. -/
@[simp] theorem objects_free : objects (free h a) = update (objects h) a none := objects_update _

/-- Replacing an object replaces it in the view of the objects. -/
theorem objects_put {cell : Cell ω} (ha : h a = some cell) :
    objects (put h a object) = update (objects h) a (some object) := by
  rw [put, objects_update, ha]
  rfl

end

/-- The numbers of owners are those of the ones who hold the addresses, and one destroys what has no
owner left. -/
structure Counts (h : Heap α ω) (holders destroyers : α → Nat) : Prop where
  unused : ∀ a, h a = none → holders a = 0 ∧ destroyers a = 0
  used : ∀ a cell, h a = some cell →
    cell.owners = holders a ∧ destroyers a = if cell.owners = 0 then 1 else 0

namespace Counts

variable {h : Heap α ω} {n d : α → Nat} {a : α}

/-- **What is held is there.** -/
theorem held (hc : Counts h n d) (ha : 0 < n a) :
    ∃ cell, h a = some cell ∧ cell.owners = n a ∧ d a = 0 := by
  cases hcell : h a with
  | none =>
    have := (hc.unused a hcell).1
    omega
  | some cell =>
    obtain ⟨howners, hd⟩ := hc.used a cell hcell
    rw [if_neg (by omega)] at hd
    exact ⟨cell, rfl, howners, hd⟩

/-- What is being destroyed is there still, and nobody holds it. -/
theorem destroyed (hc : Counts h n d) (ha : 0 < d a) :
    ∃ cell, h a = some cell ∧ cell.owners = 0 ∧ n a = 0 ∧ d a = 1 := by
  cases hcell : h a with
  | none =>
    have := (hc.unused a hcell).2
    omega
  | some cell =>
    obtain ⟨howners, hd⟩ := hc.used a cell hcell
    by_cases hzero : cell.owners = 0
    · rw [if_pos hzero] at hd
      exact ⟨cell, rfl, hzero, by omega, hd⟩
    · rw [if_neg hzero] at hd
      omega

/-- **Nothing is left over**: an address is in use if and only if somebody holds it, or destroys
what is there. -/
theorem used_iff (hc : Counts h n d) : (∃ cell, h a = some cell) ↔ 0 < n a ∨ 0 < d a := by
  constructor
  · intro ⟨cell, hcell⟩
    obtain ⟨howners, hd⟩ := hc.used a cell hcell
    split at hd <;> omega
  · intro ha
    rcases ha with ha | ha
    · obtain ⟨cell, hcell, -⟩ := hc.held ha
      exact ⟨cell, hcell⟩
    · obtain ⟨cell, hcell, -⟩ := hc.destroyed ha
      exact ⟨cell, hcell⟩

section
variable [DecidableEq α]

/-- Replacing the object keeps the counts. -/
theorem put (hc : Counts h n d) (object : ω) : Counts (Shared.put h a object) n d := by
  have at_other : ∀ b, b ≠ a → Shared.put h a object b = h b := fun b hb => update_of_ne hb _ _
  have at_self : Shared.put h a object a = (h a).map fun cell => { cell with object } :=
    update_self ..
  refine ⟨fun b hb => ?_, fun b cell hb => ?_⟩
  · rcases eq_or_ne b a with rfl | hne
    · rw [at_self, Option.map_eq_none_iff] at hb
      exact hc.unused b hb
    · rw [at_other b hne] at hb
      exact hc.unused b hb
  · rcases eq_or_ne b a with rfl | hne
    · rw [at_self, Option.map_eq_some_iff] at hb
      obtain ⟨old, hold, rfl⟩ := hb
      exact hc.used b old hold
    · rw [at_other b hne] at hb
      exact hc.used b cell hb

/-- The numbers at one address change. -/
theorem change (hc : Counts h n d) {cell : Option (Cell ω)} {k l : Nat}
    (hnone : cell = none → k = 0 ∧ l = 0)
    (hsome : ∀ c, cell = some c → c.owners = k ∧ l = if c.owners = 0 then 1 else 0) :
    Counts (update h a cell) (update n a k) (update d a l) := by
  refine ⟨fun b hb => ?_, fun b c hb => ?_⟩
  · rcases eq_or_ne b a with rfl | hne
    · rw [update_self] at hb ⊢
      rw [update_self]
      exact hnone hb
    · rw [update_of_ne hne] at hb ⊢
      rw [update_of_ne hne]
      exact hc.unused b hb
  · rcases eq_or_ne b a with rfl | hne
    · rw [update_self] at hb ⊢
      rw [update_self]
      exact hsome c hb
    · rw [update_of_ne hne] at hb ⊢
      rw [update_of_ne hne]
      exact hc.used b c hb

/-- A new object has one owner. -/
theorem make {h' : Heap α ω} {object : ω} (hc : Counts h n d)
    (hmake : Shared.make h a object = some h') : Counts h' (update n a 1) d := by
  unfold Shared.make at hmake
  cases ha : h a with
  | some cell => simp [ha] at hmake
  | none =>
    rw [ha] at hmake
    cases hmake
    have hd : d = update d a 0 := by rw [← (hc.unused a ha).2, update_eq_self]
    rw [hd]
    exact hc.change (by simp) fun c hcell => by cases hcell; simp

/-- Sharing counts one more owner, of an object that has one. -/
theorem share (hc : Counts h n d) (ha : 0 < n a) :
    Counts (Shared.share h a) (update n a (n a + 1)) d := by
  obtain ⟨cell, hcell, howners, hd⟩ := hc.held ha
  have hdu : d = update d a 0 := by rw [← hd, update_eq_self]
  rw [hdu, Shared.share, hcell]
  exact hc.change (by simp) fun c hmap => by cases hmap; simp [howners]

/-- One of several owners gives it up. -/
theorem giveUp (hc : Counts h n d) (ha : 1 < n a) :
    Counts (Shared.giveUp h a) (update n a (n a - 1)) d := by
  obtain ⟨cell, hcell, howners, hd⟩ := hc.held (by omega : 0 < n a)
  have hdu : d = update d a 0 := by rw [← hd, update_eq_self]
  rw [hdu, Shared.giveUp, hcell]
  refine hc.change (by simp) fun c hmap => ?_
  cases hmap
  exact ⟨congrArg (· - 1) howners, (if_neg (by simp only; omega)).symm⟩

/-- The last owner gives it up, and destroys it. -/
theorem giveUpLast (hc : Counts h n d) (ha : n a = 1) :
    Counts (Shared.giveUp h a) (update n a 0) (update d a 1) := by
  obtain ⟨cell, hcell, howners, -⟩ := hc.held (by omega : 0 < n a)
  rw [Shared.giveUp, hcell]
  refine hc.change (by simp) fun c hmap => ?_
  cases hmap
  have hzero : cell.owners - 1 = 0 := by omega
  exact ⟨hzero, (if_pos hzero).symm⟩

/-- Freeing a destroyed object settles its count. -/
theorem free (hc : Counts h n d) (ha : 0 < d a) : Counts (Shared.free h a) n (update d a 0) := by
  obtain ⟨-, -, -, hn, -⟩ := hc.destroyed ha
  have hnu : n = update n a 0 := by rw [← hn, update_eq_self]
  rw [hnu]
  exact hc.change (by simp) (by simp)

end

end Counts

end Shared
