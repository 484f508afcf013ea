import Mathlib.Order.Lattice
import Mathlib.Data.List.Basic
import Mathlib.Algebra.BigOperators.Group.List.Basic
import Mathlib.Algebra.Order.BigOperators.Group.List
import Mathlib.Algebra.Order.Ring.Nat

/-! # Ordered maps as strictly sorted association lists

The node keeps every consensus collection in a tree map whose iteration order
is the key order, and it hashes what that iteration writes.  An `OrdMap` is
the list such an iteration visits, together with the proof that its keys
increase strictly: two maps with the same lookups are then the same map
(`OrdMap.ext_find?`), and a sum over the entries can be followed through an
update of one key (`OrdMap.sum_set`, `OrdMap.sum_erase`).

Nothing here depends on the keys or the values; a linear order on the keys is
the only assumption.
-/

namespace Cybou.Library

universe u v

/-! ### Operations on association lists -/

section Lists

variable {K : Type u} {V : Type v} [LinearOrder K]

/-- The value stored under `k`, if any. -/
@[grind =] def findIn (k : K) : List (K × V) → Option V
  | [] => none
  | e :: rest => if e.1 = k then some e.2 else findIn k rest

/-- Store `v` under `k`, in place of an older value if there is one. -/
@[grind =] def setIn (k : K) (v : V) : List (K × V) → List (K × V)
  | [] => [(k, v)]
  | e :: rest =>
    if k < e.1 then (k, v) :: e :: rest
    else if e.1 = k then (k, v) :: rest
    else e :: setIn k v rest

/-- Drop the entry of `k`. -/
@[grind =] def eraseIn (k : K) (l : List (K × V)) : List (K × V) :=
  l.filter fun e => decide (e.1 ≠ k)

abbrev Ascending (l : List (K × V)) : Prop :=
  l.Pairwise fun a b => a.1 < b.1

variable {k : K} {l : List (K × V)}

theorem findIn_eq_none :
    findIn k l = none ↔ ∀ e ∈ l, e.1 ≠ k := by
  induction l with
  | nil => simp [findIn]
  | cons e rest ih =>
    by_cases h : e.1 = k
    · simp [findIn, h]
    · simp [findIn, h, ih]

variable {v w : V}

theorem mem_of_findIn (h : findIn k l = some v) : (k, v) ∈ l := by
  induction l with
  | nil => cases h
  | cons e rest ih =>
    rw [findIn] at h
    split at h
    · next hk =>
      cases h
      exact List.mem_cons.mpr (.inl (by rw [← hk]))
    · exact List.mem_cons_of_mem _ (ih h)

theorem findIn_of_mem (hs : Ascending l) (h : (k, v) ∈ l) : findIn k l = some v := by
  induction l with
  | nil => cases h
  | cons e rest ih =>
    obtain ⟨hhead, htail⟩ := List.pairwise_cons.mp hs
    rcases List.mem_cons.mp h with rfl | h
    · simp [findIn]
    · have hlt : e.1 < k := hhead _ h
      rw [findIn, if_neg hlt.ne]
      exact ih htail h

theorem findIn_setIn {k' : K} :
    findIn k' (setIn k v l) = if k' = k then some v else findIn k' l := by
  induction l with
  | nil => simp [setIn, findIn, eq_comm]
  | cons e rest ih =>
    rw [setIn]
    split_ifs with h₁ h₂ <;> by_cases hk : k' = k
    all_goals by_cases he : e.1 = k' <;> simp_all [findIn, eq_comm]

theorem mem_setIn {e : K × V} (h : e ∈ setIn k v l) : e = (k, v) ∨ e ∈ l := by
  induction l with
  | nil => simpa [setIn] using h
  | cons a rest ih =>
    rw [setIn] at h
    split_ifs at h with h₁ h₂
    · simpa using h
    · rcases List.mem_cons.mp h with h | h
      · exact .inl h
      · exact .inr (List.mem_cons_of_mem _ h)
    · rcases List.mem_cons.mp h with h | h
      · exact .inr (h ▸ List.mem_cons_self)
      · exact (ih h).imp_right (List.mem_cons_of_mem _)

theorem setIn_ascending (hs : Ascending l) : Ascending (setIn k v l) := by
  induction l with
  | nil => simp [setIn]
  | cons e rest ih =>
    obtain ⟨hhead, htail⟩ := List.pairwise_cons.mp hs
    rw [setIn]
    split_ifs with h₁ h₂
    · refine List.pairwise_cons.mpr ⟨fun a ha => ?_, hs⟩
      rcases List.mem_cons.mp ha with rfl | ha
      · exact h₁
      · exact h₁.trans (hhead a ha)
    · subst h₂
      exact List.pairwise_cons.mpr ⟨hhead, htail⟩
    · refine List.pairwise_cons.mpr ⟨fun a ha => ?_, ih htail⟩
      rcases mem_setIn ha with rfl | ha
      · exact lt_of_le_of_ne (not_lt.mp h₁) h₂
      · exact hhead a ha

theorem eraseIn_ascending (hs : Ascending l) : Ascending (eraseIn k l) :=
  hs.sublist List.filter_sublist

theorem ascending_ext {l₁ l₂ : List (K × V)} (h₁ : Ascending l₁) (h₂ : Ascending l₂)
    (h : ∀ k, findIn k l₁ = findIn k l₂) : l₁ = l₂ := by
  have hmem : ∀ e, e ∈ l₁ ↔ e ∈ l₂ := fun e =>
    ⟨fun he => mem_of_findIn (by rw [← h]; exact findIn_of_mem h₁ he),
     fun he => mem_of_findIn (by rw [h]; exact findIn_of_mem h₂ he)⟩
  have hn₁ : l₁.Nodup := h₁.imp fun hlt heq => absurd (heq ▸ hlt) (lt_irrefl _)
  have hn₂ : l₂.Nodup := h₂.imp fun hlt heq => absurd (heq ▸ hlt) (lt_irrefl _)
  exact ((List.perm_ext_iff_of_nodup hn₁ hn₂).mpr hmem).eq_of_pairwise
    (fun a b _ _ hab hba => absurd hab hba.asymm) h₁ h₂

/-! Sums over the entries, and how one update moves them. -/

@[grind =] def sumIn (f : K → V → Nat) (l : List (K × V)) : Nat :=
  (l.map fun e => f e.1 e.2).sum

theorem sumIn_setIn_of_none {f : K → V → Nat}
    (h : findIn k l = none) : sumIn f (setIn k v l) = sumIn f l + f k v := by
  induction l with
  | nil => simp [setIn, sumIn]
  | cons e rest ih =>
    have hne : e.1 ≠ k := findIn_eq_none.mp h e List.mem_cons_self
    have hrest : findIn k rest = none := by simpa [findIn, hne] using h
    rw [setIn]
    split_ifs with h₁
    · simp only [sumIn, List.map_cons, List.sum_cons]
      omega
    · have := ih hrest
      simp only [sumIn, List.map_cons, List.sum_cons] at this ⊢
      omega

theorem sumIn_setIn_of_some {f : K → V → Nat} (hs : Ascending l) (h : findIn k l = some w) :
    sumIn f (setIn k v l) + f k w = sumIn f l + f k v := by
  induction l with
  | nil => cases h
  | cons e rest ih =>
    obtain ⟨hhead, htail⟩ := List.pairwise_cons.mp hs
    by_cases hk : e.1 = k
    · subst hk
      obtain rfl : e.2 = w := by simpa [findIn] using h
      simp only [setIn, lt_irrefl, if_false, if_true, sumIn, List.map_cons, List.sum_cons]
      omega
    · have hrest : findIn k rest = some w := by simpa [findIn, hk] using h
      have hlt : e.1 < k := hhead _ (mem_of_findIn hrest)
      have := ih htail hrest
      rw [setIn, if_neg hlt.not_gt, if_neg hk]
      simp only [sumIn, List.map_cons, List.sum_cons] at this ⊢
      omega

theorem map_setIn_of_some {β : Type*} {f : K × V → β}
    (hs : Ascending l) (h : findIn k l = some w) (hf : f (k, v) = f (k, w)) :
    (setIn k v l).map f = l.map f := by
  induction l with
  | nil => cases h
  | cons e rest ih =>
    obtain ⟨hhead, htail⟩ := List.pairwise_cons.mp hs
    rw [findIn] at h
    split at h
    · next hk =>
      cases h
      rw [setIn, if_neg (by rw [hk]; exact lt_irrefl k), if_pos hk, List.map_cons, List.map_cons, hf,
        ← hk]
    · next hk =>
      have hlt : e.1 < k := hhead _ (mem_of_findIn h)
      rw [setIn, if_neg hlt.asymm, if_neg hk, List.map_cons, List.map_cons, ih htail h]

theorem eraseIn_of_none (h : findIn k l = none) :
    eraseIn k l = l := by
  refine List.filter_eq_self.mpr fun e he => ?_
  simpa using findIn_eq_none.mp h e he

theorem sumIn_eraseIn_of_some {f : K → V → Nat} (hs : Ascending l) (h : findIn k l = some w) :
    sumIn f (eraseIn k l) + f k w = sumIn f l := by
  induction l with
  | nil => cases h
  | cons e rest ih =>
    obtain ⟨hhead, htail⟩ := List.pairwise_cons.mp hs
    by_cases hk : e.1 = k
    · subst hk
      obtain rfl : e.2 = w := by simpa [findIn] using h
      have hnone : findIn e.1 rest = none :=
        findIn_eq_none.mpr fun a ha => (hhead a ha).ne'
      have : eraseIn e.1 (e :: rest) = rest := by
        simpa [eraseIn] using eraseIn_of_none hnone
      rw [this]
      simp only [sumIn, List.map_cons, List.sum_cons]
      omega
    · have hrest : findIn k rest = some w := by simpa [findIn, hk] using h
      have := ih htail hrest
      simp only [eraseIn, List.filter_cons, hk, ne_eq, not_false_eq_true, decide_true,
        if_true, sumIn, List.map_cons, List.sum_cons] at this ⊢
      omega

omit [LinearOrder K] in
theorem le_sumIn_of_mem {f : K → V → Nat} {e : K × V} (h : e ∈ l) : f e.1 e.2 ≤ sumIn f l :=
  List.single_le_sum (by simp) _ (List.mem_map_of_mem h)

end Lists

/-! ### Maps -/

/-- A finite map whose entries are kept in strictly increasing key order. -/
structure OrdMap (K : Type u) (V : Type v) [LinearOrder K] where
  entries : List (K × V)
  ascending : Ascending entries

namespace OrdMap

variable {K : Type u} {V : Type v} [LinearOrder K]

variable {m n : OrdMap K V}

theorem ext_entries (h : m.entries = n.entries) : m = n := by
  cases m
  cases n
  cases h
  rfl

instance [DecidableEq V] : DecidableEq (OrdMap K V) := fun m n =>
  decidable_of_iff (m.entries = n.entries) ⟨ext_entries, fun h => h ▸ rfl⟩

instance [Repr K] [Repr V] : Repr (OrdMap K V) := ⟨fun m n => reprPrec m.entries n⟩

instance : EmptyCollection (OrdMap K V) := ⟨⟨[], List.Pairwise.nil⟩⟩

instance : Inhabited (OrdMap K V) := ⟨∅⟩

def size (m : OrdMap K V) : Nat := m.entries.length

def find? (m : OrdMap K V) (k : K) : Option V := findIn k m.entries

def contains (m : OrdMap K V) (k : K) : Bool := (m.find? k).isSome

def set (m : OrdMap K V) (k : K) (v : V) : OrdMap K V :=
  ⟨setIn k v m.entries, setIn_ascending m.ascending⟩

/-- Insert unless the key is present, as `std::map::emplace` does. -/
def emplace (m : OrdMap K V) (k : K) (v : V) : OrdMap K V :=
  if m.contains k then m else m.set k v

def erase (m : OrdMap K V) (k : K) : OrdMap K V :=
  ⟨eraseIn k m.entries, eraseIn_ascending m.ascending⟩

/-- Keep the entries that satisfy `p`. -/
def filter (m : OrdMap K V) (p : K → V → Bool) : OrdMap K V :=
  ⟨m.entries.filter fun e => p e.1 e.2, m.ascending.sublist List.filter_sublist⟩

def sum (m : OrdMap K V) (f : K → V → Nat) : Nat := sumIn f m.entries

/-! ### Lookups -/

theorem nodup_keys (m : OrdMap K V) : (m.entries.map Prod.fst).Nodup :=
  List.pairwise_map.mpr (m.ascending.imp fun hlt => hlt.ne)

variable {k : K} {v w : V}

theorem mem_entries_iff :
    (k, v) ∈ m.entries ↔ m.find? k = some v :=
  ⟨findIn_of_mem m.ascending, mem_of_findIn⟩

theorem ext_find? (h : ∀ k, m.find? k = n.find? k) : m = n :=
  ext_entries (ascending_ext m.ascending n.ascending h)

@[simp] theorem find?_empty (k : K) : (∅ : OrdMap K V).find? k = none := rfl

@[simp, grind =] theorem find?_set (m : OrdMap K V) (k k' : K) (v : V) :
    (m.set k v).find? k' = if k' = k then some v else m.find? k' := findIn_setIn

/-- What holds of the new entry and of those under other keys holds of every entry. -/
theorem forall_find?_set_of_ne {P : K → V → Prop} {m : OrdMap K V} {k : K} {v : V} (hnew : P k v)
    (hold : ∀ k' v', k' ≠ k → m.find? k' = some v' → P k' v') :
    ∀ k' v', (m.set k v).find? k' = some v' → P k' v' := by
  intro k' v' hfind
  rw [find?_set] at hfind
  split at hfind
  · next heq =>
    cases hfind
    exact heq ▸ hnew
  · next hne => exact hold k' v' hne hfind

theorem forall_find?_set {P : K → V → Prop} {m : OrdMap K V} {k : K} {v : V} (hnew : P k v)
    (hold : ∀ k' v', m.find? k' = some v' → P k' v') : ∀ k' v', (m.set k v).find? k' = some v' → P k' v' :=
  forall_find?_set_of_ne hnew fun k' v' _ => hold k' v'

theorem find?_set_self (m : OrdMap K V) (k : K) (v : V) : (m.set k v).find? k = some v := by simp

theorem find?_set_of_ne (m : OrdMap K V) {k' : K} (v : V) (h : k' ≠ k) :
    (m.set k v).find? k' = m.find? k' := by simp [h]

@[simp, grind =] theorem find?_erase (m : OrdMap K V) (k k' : K) :
    (m.erase k).find? k' = if k' = k then none else m.find? k' := by
  have hmem : ∀ v, (m.erase k).find? k' = some v ↔ k' ≠ k ∧ m.find? k' = some v := by
    intro v
    rw [← mem_entries_iff, ← mem_entries_iff]
    simp [erase, eraseIn, and_comm]
  refine Option.ext fun v => ?_
  rw [hmem]
  by_cases h : k' = k <;> simp [h]

theorem contains_iff :
    m.contains k = true ↔ ∃ v, m.find? k = some v := by
  simp [contains, Option.isSome_iff_exists]

theorem contains_eq_false_iff :
    m.contains k = false ↔ m.find? k = none := by
  simp [contains]

theorem contains_of_find? (h : m.find? k = some v) :
    m.contains k = true := contains_iff.mpr ⟨v, h⟩

@[simp, grind =] theorem contains_set (m : OrdMap K V) (k k' : K) (v : V) :
    (m.set k v).contains k' = (decide (k' = k) || m.contains k') := by
  by_cases h : k' = k <;> simp [contains, h]

theorem emplace_of_none (h : m.find? k = none) :
    m.emplace k v = m.set k v := by
  simp [emplace, contains, h]

/-! ### Sizes and sums -/

theorem sum_set_of_none {f : K → V → Nat} (h : m.find? k = none) : (m.set k v).sum f = m.sum f + f k v :=
  sumIn_setIn_of_none h

theorem sum_set_of_some {m : OrdMap K V} {k : K} {v w : V} {f : K → V → Nat}
    (h : m.find? k = some w) : (m.set k v).sum f + f k w = m.sum f + f k v :=
  sumIn_setIn_of_some m.ascending h

theorem sum_erase_of_some {f : K → V → Nat} (h : m.find? k = some w) : (m.erase k).sum f + f k w = m.sum f :=
  sumIn_eraseIn_of_some m.ascending h

theorem le_sum_of_find? {m : OrdMap K V} {k : K} {v : V} {f : K → V → Nat}
    (h : m.find? k = some v) : f k v ≤ m.sum f :=
  le_sumIn_of_mem (e := (k, v)) (mem_of_findIn h)

theorem size_eq_sum (m : OrdMap K V) : m.size = m.sum fun _ _ => 1 := by
  simp [size, sum, sumIn]

theorem size_set_of_none (h : m.find? k = none) :
    (m.set k v).size = m.size + 1 := by
  rw [size_eq_sum, size_eq_sum, sum_set_of_none h]

theorem size_set_of_some (h : m.find? k = some w) :
    (m.set k v).size = m.size := by
  have := sum_set_of_some (v := v) (f := fun _ _ => 1) h
  rw [size_eq_sum, size_eq_sum]
  omega

theorem size_erase_of_some (h : m.find? k = some w) :
    (m.erase k).size + 1 = m.size := by
  rw [size_eq_sum, size_eq_sum]
  exact sum_erase_of_some h

theorem find?_filter {p : K → V → Bool} :
    (m.filter p).find? k = some v ↔ m.find? k = some v ∧ p k v = true := by
  rw [← mem_entries_iff, ← mem_entries_iff]
  exact List.mem_filter

theorem size_filter_le (m : OrdMap K V) (p : K → V → Bool) : (m.filter p).size ≤ m.size :=
  List.length_filter_le _ _

/-! ### Inserting a list of distinct keys -/

/-- Insert every entry in turn, failing on a key that is already present. -/
@[grind =] def emplaceAll (m : OrdMap K V) : List (K × V) → Option (OrdMap K V)
  | [] => some m
  | e :: l => if m.contains e.1 then none else (m.emplace e.1 e.2).emplaceAll l

theorem eq_of_perm (h : m.entries.Perm n.entries) : m = n :=
  ext_entries (h.eq_of_pairwise (fun _ _ _ _ hab hba => absurd hab hba.asymm)
    m.ascending n.ascending)

theorem entries_set_perm (h : m.find? k = none) :
    (m.set k v).entries.Perm ((k, v) :: m.entries) := by
  have hne : ∀ e ∈ m.entries, e.1 ≠ k := findIn_eq_none.mp h
  show (setIn k v m.entries).Perm _
  generalize m.entries = l at hne
  induction l with
  | nil => exact List.Perm.refl _
  | cons e rest ih =>
    obtain ⟨he, hrest⟩ := List.forall_mem_cons.mp hne
    rw [setIn]
    split_ifs
    · exact List.Perm.refl _
    · exact ((ih hrest).cons e).trans (List.Perm.swap _ _ _)

theorem map_entries_set_of_some {β : Type*} {f : K × V → β}
    (h : m.find? k = some w) (hf : f (k, v) = f (k, w)) :
    (m.set k v).entries.map f = m.entries.map f :=
  map_setIn_of_some m.ascending h hf

theorem erase_set (m : OrdMap K V) (k : K) (v : V) : (m.set k v).erase k = m.erase k := by
  apply ext_find?
  intro k'
  by_cases hk : k' = k <;> simp [hk]

theorem entries_perm_of_find? (h : m.find? k = some v) :
    m.entries.Perm ((k, v) :: (m.erase k).entries) := by
  have hset : m = (m.erase k).set k v := by
    apply ext_find?
    intro k'
    by_cases hk : k' = k <;> simp [hk, h]
  have hperm := entries_set_perm (v := v) (show (m.erase k).find? k = none by simp)
  rwa [← hset] at hperm

/-- **A map is filled in any order**: inserting `l` succeeds with `m'` exactly
    when the entries of `m'` are those of `m` and `l` together. -/
theorem emplaceAll_eq_some {m' : OrdMap K V} {l : List (K × V)} :
    m.emplaceAll l = some m' ↔ m'.entries.Perm (m.entries ++ l) := by
  induction l generalizing m with
  | nil =>
    rw [emplaceAll, List.append_nil, Option.some.injEq]
    exact ⟨fun h => h ▸ List.Perm.refl _, fun h => (eq_of_perm h).symm⟩
  | cons e l ih =>
    rw [emplaceAll]
    split
    · next hcontains =>
      -- the key would occur twice among the keys of `m'`
      simp only [reduceCtorEq, false_iff]
      intro hperm
      obtain ⟨v, hv⟩ := contains_iff.mp hcontains
      have hnodup' := (hperm.map Prod.fst).nodup_iff.mp m'.nodup_keys
      rw [List.map_append, List.nodup_append] at hnodup'
      have hmem : e.1 ∈ m.entries.map Prod.fst :=
        List.mem_map.mpr ⟨(e.1, v), mem_entries_iff.mpr hv, rfl⟩
      exact hnodup'.2.2 e.1 hmem e.1 (by simp) rfl
    · next hnot =>
      have hnone : m.find? e.1 = none := contains_eq_false_iff.mp (eq_false_of_ne_true hnot)
      have hset : ((m.set e.1 e.2).entries ++ l).Perm (m.entries ++ e :: l) :=
        ((entries_set_perm hnone).append_right l).trans List.perm_middle.symm
      rw [emplace_of_none hnone, ih]
      exact ⟨fun h => h.trans hset, fun h => h.trans hset.symm⟩

theorem emplaceAll_empty {l : List (K × V)} :
    (∅ : OrdMap K V).emplaceAll l = some m ↔ m.entries.Perm l :=
  emplaceAll_eq_some

end OrdMap

end Cybou.Library
