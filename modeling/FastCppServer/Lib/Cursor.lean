import Mathlib.Data.List.Basic

/-!
# Readers that move an offset

A reader looks at a buffer from an offset that it advances; it may fault, and the offset it leaves
then is part of its outcome. `Reads r bytes a` says that wherever `bytes` stand in a buffer of less
than `bound` symbols, `r` gives `a` from their start and stops at their end. Readers that run one
after the other read bytes that stand one after the other (`Reads.bind`), so the round trip of a
record is the chain of its fields' round trips. `Peeks r bytes a` is the same for a reader that
looks ahead and leaves the offset where it is.
-/

namespace Cursor

universe u v w

/-- A reader of a fixed buffer with a moving offset. -/
abbrev Reader (β : Type u) (ε : Type u) (α : Type u) := List β → Nat → Except ε α × Nat

section
variable {β ε α γ : Type u}

/-- Reads nothing. -/
def Reader.pure (a : α) : Reader β ε α := fun _ offset => (.ok a, offset)

/-- One reader behind the other, unless the first one fails. -/
def Reader.bind (r : Reader β ε α) (f : α → Reader β ε γ) : Reader β ε γ := fun buf offset =>
  match r buf offset with
  | (.ok a, offset) => f a buf offset
  | (.error e, offset) => (.error e, offset)

instance : Monad (Reader β ε) where
  pure := Reader.pure
  bind := Reader.bind

/-- Behind a reader that has read, the next one goes on at its offset. -/
theorem Reader.bind_ok {r : Reader β ε α} {buf : List β} {offset offset' : Nat} {a : α}
    (h : r buf offset = (.ok a, offset')) (f : α → Reader β ε γ) :
    (r >>= f) buf offset = f a buf offset' := by
  show Reader.bind r f buf offset = _
  rw [Reader.bind, h]

/-- Behind one that has failed, nothing is read. -/
theorem Reader.bind_error {r : Reader β ε α} {buf : List β} {offset offset' : Nat} {e : ε}
    (h : r buf offset = (.error e, offset')) (f : α → Reader β ε γ) :
    (r >>= f) buf offset = (.error e, offset') := by
  show Reader.bind r f buf offset = _
  rw [Reader.bind, h]

/-- Readers compose in one way only. -/
theorem Reader.bind_assoc {δ : Type u} (r : Reader β ε α) (f : α → Reader β ε γ)
    (g : γ → Reader β ε δ) : (r >>= f) >>= g = r >>= fun a => f a >>= g := by
  funext buf offset
  show Reader.bind (Reader.bind r f) g buf offset = Reader.bind r (fun a => f a >>= g) buf offset
  rw [Reader.bind, Reader.bind, Reader.bind]
  cases r buf offset with
  | mk outcome offset' =>
    cases outcome with
    | ok a => rfl
    | error e => rfl

/-- `n` readings one after the other. -/
def readList (r : Reader β ε α) : Nat → Reader β ε (List α)
  | 0 => pure []
  | n + 1 => do
    let a ← r
    let as ← readList r n
    pure (a :: as)

variable {bound : Nat}

/-- Wherever `bytes` stand in a buffer below the bound, `r` reads `a` from them and stops behind
them. -/
def Reads (bound : Nat) (r : Reader β ε α) (bytes : List β) (a : α) : Prop :=
  ∀ front back : List β, (front ++ bytes ++ back).length < bound →
    r (front ++ bytes ++ back) front.length = (.ok a, front.length + bytes.length)

/-- Reading nothing reads no bytes. -/
theorem Reads.pure (a : α) : Reads bound (Pure.pure a : Reader β ε α) [] a :=
  fun _ _ _ => rfl

/-- **One reader after the other.** -/
theorem Reads.bind {r : Reader β ε α} {f : α → Reader β ε γ} {xs ys : List β} {a : α} {c : γ}
    (h : Reads bound r xs a) (h' : Reads bound (f a) ys c) :
    Reads bound (r >>= f) (xs ++ ys) c := by
  intro front back hb
  have hxs : r (front ++ (xs ++ ys) ++ back) front.length = (.ok a, front.length + xs.length) := by
    have := h front (ys ++ back)
    simp only [List.append_assoc] at this hb ⊢
    exact this hb
  have hys : f a (front ++ (xs ++ ys) ++ back) (front.length + xs.length) =
      (.ok c, front.length + xs.length + ys.length) := by
    have := h' (front ++ xs) back
    simp only [List.append_assoc, List.length_append] at this hb ⊢
    exact this hb
  rw [Reader.bind_ok hxs, List.length_append, ← Nat.add_assoc]
  exact hys

/-- The last reader, whose value is returned in another form. -/
theorem Reads.bind_pure {r : Reader β ε α} {f : α → γ} {xs : List β} {a : α}
    (h : Reads bound r xs a) : Reads bound (r >>= fun a => Pure.pure (f a)) xs (f a) := by
  have := h.bind (f := fun a => Pure.pure (f a)) (Reads.pure (f a))
  rwa [List.append_nil] at this

/-- **A list of items**, each read from its own bytes. -/
theorem Reads.readList {r : Reader β ε α} {bytes : α → List β}
    (h : ∀ a, Reads bound r (bytes a) a) (as : List α) :
    Reads bound (readList r as.length) (as.map bytes).flatten as := by
  induction as with
  | nil => exact Reads.pure []
  | cons a as ih =>
    rw [List.map_cons, List.flatten_cons]
    exact (h a).bind ih.bind_pure

/-- A buffer that holds the bytes and nothing else is read to its end. -/
theorem Reads.run {r : Reader β ε α} {bytes : List β} {a : α} (h : Reads bound r bytes a)
    (hb : bytes.length < bound) : r bytes 0 = (.ok a, bytes.length) := by
  have := h [] []
  simp only [List.nil_append, List.append_nil, List.length_nil, Nat.zero_add] at this
  exact this hb

/-! ## Looking ahead -/

/-- Wherever `bytes` stand in a buffer below the bound, `r` gives `a` from their start and leaves
the offset there. -/
def Peeks (bound : Nat) (r : Reader β ε α) (bytes : List β) (a : α) : Prop :=
  ∀ front back : List β, (front ++ bytes ++ back).length < bound →
    r (front ++ bytes ++ back) front.length = (.ok a, front.length)

/-- And looks at none. -/
theorem Peeks.pure (bytes : List β) (a : α) :
    Peeks bound (Pure.pure a : Reader β ε α) bytes a :=
  fun _ _ _ => rfl

/-- Two readers that look at the same bytes. -/
theorem Peeks.bind {r : Reader β ε α} {f : α → Reader β ε γ} {bytes : List β} {a : α} {c : γ}
    (h : Peeks bound r bytes a) (h' : Peeks bound (f a) bytes c) :
    Peeks bound (r >>= f) bytes c := by
  intro front back hb
  rw [Reader.bind_ok (h front back hb)]
  exact h' front back hb

/-- **Looking ahead, then reading** the same bytes. -/
theorem Peeks.reads {r : Reader β ε α} {f : α → Reader β ε γ} {bytes : List β} {a : α} {c : γ}
    (h : Peeks bound r bytes a) (h' : Reads bound (f a) bytes c) :
    Reads bound (r >>= f) bytes c := by
  intro front back hb
  rw [Reader.bind_ok (h front back hb)]
  exact h' front back hb

end

end Cursor
