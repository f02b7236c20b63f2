import Mathlib.Algebra.GroupWithZero.Nat
import Mathlib.Data.Finmap

/-!
# What holds of a dictionary

A dictionary is an association list with each key once. What holds of all its entries (`All`) is
kept by an insertion of an entry it holds of, and by an erasure. An insertion at a key that is there
keeps the keys, and with them the sums over the dictionary.
-/

namespace Dict

universe u v w

variable {α : Type u} {β : Type v}

/-- **Sums over two dictionaries** with the same keys. -/
theorem sum_keys {γ : Type w} {t : AList fun _ : α => β} {t' : AList fun _ : α => γ}
    (h : ∀ a, a ∈ t ↔ a ∈ t') (f : α → Nat) : (t.keys.map f).sum = (t'.keys.map f).sum := by
  have hperm : t.keys.Perm t'.keys := by
    rw [List.perm_ext_iff_of_nodup t.keys_nodup t'.keys_nodup]
    intro a
    rw [← AList.mem_keys, h a, AList.mem_keys]
  exact (hperm.map f).sum_nat

/-- **Sums over two dictionaries**, one with a key more than the other. -/
theorem sum_keys_of_cons {γ : Type w} {t : AList fun _ : α => β}
    {t' : AList fun _ : α => γ} {a : α} (ha : a ∉ t')
    (h : ∀ a', a' ∈ t ↔ a' = a ∨ a' ∈ t') (f : α → Nat) :
    (t.keys.map f).sum = f a + (t'.keys.map f).sum := by
  have hperm : t.keys.Perm (a :: t'.keys) := by
    rw [List.perm_ext_iff_of_nodup t.keys_nodup
      (List.nodup_cons.2 ⟨mt AList.mem_keys.2 ha, t'.keys_nodup⟩)]
    intro a'
    rw [← AList.mem_keys, h a', List.mem_cons, AList.mem_keys]
  rw [(hperm.map f).sum_nat, List.map_cons, List.sum_cons]

variable [DecidableEq α]

/-- It holds of every entry. -/
def All (P : α → β → Prop) (t : AList fun _ : α => β) : Prop :=
  ∀ a b, t.lookup a = some b → P a b

variable {P Q : α → β → Prop} {t : AList fun _ : α => β} {a : α} {b : β}

theorem All.empty : All P ∅ := by
  intro a b h
  rw [AList.lookup_empty] at h
  cases h

/-- It is enough that it holds of the other entries. -/
theorem All.insert_of_ne (h : ∀ a' b', a' ≠ a → t.lookup a' = some b' → P a' b') (hb : P a b) :
    All P (t.insert a b) := by
  intro a' b' h'
  rcases eq_or_ne a' a with rfl | hne
  · rw [AList.lookup_insert] at h'
    cases h'
    exact hb
  · rw [AList.lookup_insert_ne hne] at h'
    exact h a' b' hne h'

theorem All.insert (h : All P t) (hb : P a b) : All P (t.insert a b) :=
  .insert_of_ne (fun a' b' _ => h a' b') hb

theorem All.singleton (hb : P a b) : All P (AList.singleton a b) := by
  rw [← AList.insert_empty]
  exact All.empty.insert hb

theorem All.erase (h : All P t) : All P (t.erase a) := by
  intro a' b' h'
  rcases eq_or_ne a' a with rfl | hne
  · rw [AList.lookup_erase] at h'
    cases h'
  · rw [AList.lookup_erase_ne hne] at h'
    exact h a' b' h'

theorem All.mono (h : All P t) (himp : ∀ a b, P a b → Q a b) : All Q t :=
  fun a b hab => himp a b (h a b hab)

theorem mem_of_lookup (h : t.lookup a = some b) : a ∈ t := by
  rw [← AList.lookup_isSome, h]
  rfl

theorem exists_lookup (h : a ∈ t) : ∃ b, t.lookup a = some b :=
  Option.isSome_iff_exists.1 (AList.lookup_isSome.2 h)

/-- A key that is there stays the same key. -/
theorem mem_insert_of_lookup {b₀ : β} (h : t.lookup a = some b₀) {a' : α} :
    a' ∈ t.insert a b ↔ a' ∈ t := by
  rw [AList.mem_insert]
  constructor
  · rintro (rfl | hmem)
    · exact mem_of_lookup h
    · exact hmem
  · exact .inr

/-! ## Finite maps -/

/-- What is found after insertions, each key once: what was inserted, or what was there. -/
theorem lookup_foldl_insert {entries : List (Σ _ : α, β)} (hnodup : entries.NodupKeys)
    (m : Finmap fun _ : α => β) (a : α) :
    (entries.foldl (fun m entry => m.insert entry.1 entry.2) m).lookup a =
      (entries.dlookup a).or (m.lookup a) := by
  induction entries generalizing m with
  | nil => rw [List.foldl_nil, List.dlookup_nil, Option.none_or]
  | cons entry rest ih =>
    obtain ⟨a', b'⟩ := entry
    obtain ⟨hfresh, hrest⟩ := List.nodupKeys_cons.1 hnodup
    rw [List.foldl_cons, ih hrest]
    rcases eq_or_ne a a' with rfl | hne
    · rw [Finmap.lookup_insert, List.dlookup_cons_eq, List.dlookup_eq_none.2 hfresh,
        Option.none_or, Option.some_or]
    · rw [Finmap.lookup_insert_of_ne _ hne, List.dlookup_cons_ne _ _ hne]

/-- The entries of a dictionary, inserted one after the other, make its finite map. -/
theorem foldl_insert_entries (t : AList fun _ : α => β) :
    t.entries.foldl (fun m entry => m.insert entry.1 entry.2) (∅ : Finmap fun _ : α => β) =
      t.toFinmap := by
  apply Finmap.ext_lookup
  intro a
  rw [lookup_foldl_insert t.nodupKeys, Finmap.lookup_empty, Option.or_none, Finmap.lookup_toFinmap,
    AList.lookup]

end Dict
