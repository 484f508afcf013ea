import Cybou.Library.OrdMap
import Mathlib.Data.List.Induction
import Mathlib.Data.List.Nodup

/-! # Collecting the elements of a list by key

One pass over a list puts each element behind those of its key, and notes the keys in the
order in which they were met.  Visiting the groups in any order gives a permutation of the
list (`Groups.flatten_perm`) in which the elements of one key stand together
(`Groups.flatten_contiguous`).
-/

namespace Cybou.Library

variable {α κ : Type}

/-! ### Elements that stand together -/

/-- Between two elements of one key there is no element of another. -/
def Contiguous (key : α → κ) (l : List α) : Prop :=
  ∀ before x between y after, l = before ++ x :: (between ++ y :: after) → key x = key y →
    ∀ z ∈ between, key z = key x

theorem contiguous_nil (key : α → κ) : Contiguous key ([] : List α) := by
  intro before x between y after h
  have hlength := congrArg List.length h
  rw [List.length_append, List.length_cons, List.length_nil] at hlength
  omega

theorem Contiguous.append {key : α → κ} {k : κ} {block rest : List α} (hblock : ∀ a ∈ block, key a = k)
    (hrest : Contiguous key rest) (hother : ∀ a ∈ rest, key a ≠ k) : Contiguous key (block ++ rest) := by
  induction block with
  | nil => exact hrest
  | cons first block ih =>
    obtain ⟨hfirst, hblock⟩ := List.forall_mem_cons.mp hblock
    intro before x between y after h hkey z hz
    cases before with
    | nil =>
      rw [List.cons_append, List.nil_append, List.cons_eq_cons] at h
      obtain ⟨rfl, h⟩ := h
      rw [hfirst] at hkey ⊢
      rcases List.append_eq_append_iff.mp h with ⟨tail, -, htail⟩ | ⟨tail, htail, -⟩
      · refine absurd hkey.symm (hother y ?_)
        rw [htail]
        exact List.mem_append_right _ List.mem_cons_self
      · refine hblock z ?_
        rw [htail]
        exact List.mem_append_left _ hz
    | cons other before =>
      rw [List.cons_append, List.cons_append, List.cons_eq_cons] at h
      exact ih hblock before x between y after h.2 hkey z hz

theorem contiguous_flatMap {key : α → κ} {f : κ → List α} (hf : ∀ k, ∀ a ∈ f k, key a = k) {order : List κ}
    (hnodup : order.Nodup) : Contiguous key (order.flatMap f) := by
  induction order with
  | nil => exact contiguous_nil key
  | cons k order ih =>
    obtain ⟨hnew, hnodup⟩ := List.nodup_cons.mp hnodup
    rw [List.flatMap_cons]
    refine (ih hnodup).append (hf k) fun a ha hkey => ?_
    obtain ⟨k', hk', ha⟩ := List.mem_flatMap.mp ha
    rw [hf k' a ha] at hkey
    exact hnew (hkey ▸ hk')

/-! ### Groups -/

variable [LinearOrder κ]

/-- The groups by key, and the keys in the order of their first elements. -/
structure Groups (α κ : Type) [LinearOrder κ] where
  members : OrdMap κ (List α)
  order : List κ

namespace Groups

def group (g : Groups α κ) (k : κ) : List α := (g.members.find? k).getD []

/-- Put an element behind those of its key. -/
def add (g : Groups α κ) (k : κ) (a : α) : Groups α κ where
  members := g.members.set k (g.group k ++ [a])
  order := if (g.group k).isEmpty = true then g.order ++ [k] else g.order

def collect (key : α → κ) (l : List α) : Groups α κ := l.foldl (fun g a => g.add (key a) a) ⟨∅, []⟩

def flatten (g : Groups α κ) (order : List κ) : List α := order.flatMap g.group

structure Collected (key : α → κ) (g : Groups α κ) (l : List α) : Prop where
  group : ∀ k, g.group k = l.filter fun a => decide (key a = k)
  nodup : g.order.Nodup
  order : ∀ k, k ∈ g.order ↔ ∃ a ∈ l, key a = k

theorem Collected.add {key : α → κ} {g : Groups α κ} {l : List α} (h : Collected key g l) (a : α) :
    Collected key (g.add (key a) a) (l ++ [a]) := by
  have hempty : (g.group (key a)).isEmpty = true ↔ key a ∉ g.order := by
    rw [List.isEmpty_iff, h.group, h.order, List.filter_eq_nil_iff]
    simp
  refine ⟨fun k => ?_, ?_, fun k => ?_⟩
  · have hset : (g.add (key a) a).group k = if k = key a then g.group (key a) ++ [a] else g.group k := by
      unfold Groups.add
      rw [Groups.group, OrdMap.find?_set]
      split <;> rfl
    rw [hset, List.filter_append, h.group, h.group]
    by_cases hk : k = key a
    · simp [hk]
    · simp [hk, Ne.symm hk]
  · unfold Groups.add
    dsimp only
    split
    next hnew =>
      refine List.nodup_append.mpr ⟨h.nodup, List.nodup_singleton _, fun k hk k' hk' heq => ?_⟩
      rw [List.mem_singleton.mp hk'] at heq
      exact hempty.mp hnew (heq ▸ hk)
    · exact h.nodup
  · unfold Groups.add
    dsimp only
    simp only [List.mem_append, List.mem_singleton, or_and_right, exists_or, exists_eq_left]
    rw [← h.order]
    split
    · rw [List.mem_append, List.mem_singleton, eq_comm]
    next hold =>
      rw [hempty, not_not] at hold
      constructor
      · exact .inl
      · rintro (hk | rfl)
        · exact hk
        · exact hold

/-- **Collecting puts every element into the group of its key.** -/
theorem collected (key : α → κ) (l : List α) : Collected key (collect key l) l := by
  induction l using List.reverseRecOn with
  | nil => exact ⟨fun _ => rfl, List.nodup_nil, fun k => by simp [collect]⟩
  | append_singleton l a ih =>
    have hstep : collect key (l ++ [a]) = (collect key l).add (key a) a := List.foldl_append
    rw [hstep]
    exact ih.add a

theorem Collected.length_le {key : α → κ} {g : Groups α κ} {l : List α} (h : Collected key g l) :
    g.order.length ≤ l.length := by
  have hsub : g.order ⊆ l.map key := fun k hk => List.mem_map.mpr ((h.order k).mp hk)
  have hle := (List.subperm_of_subset h.nodup hsub).length_le
  rwa [List.length_map] at hle

theorem flatMap_filter_perm (key : α → κ) (l : List α) {order : List κ} (hnodup : order.Nodup) :
    (order.flatMap fun k => l.filter fun a => decide (key a = k)).Perm (l.filter fun a => decide (key a ∈ order)) := by
  induction order with
  | nil => simp
  | cons k order ih =>
    obtain ⟨hnew, hnodup⟩ := List.nodup_cons.mp hnodup
    have hsplit := List.filter_append_perm (fun a => decide (key a = k)) (l.filter fun a => decide (key a ∈ k :: order))
    rw [List.filter_filter, List.filter_filter] at hsplit
    rw [List.flatMap_cons]
    refine List.Perm.trans ?_ hsplit
    have hfirst : (l.filter fun a => decide (key a = k) && decide (key a ∈ k :: order)) =
        l.filter fun a => decide (key a = k) := by
      refine List.filter_congr fun a _ => ?_
      by_cases hk : key a = k <;> simp [hk]
    have hrest : (l.filter fun a => !decide (key a = k) && decide (key a ∈ k :: order)) =
        l.filter fun a => decide (key a ∈ order) := by
      refine List.filter_congr fun a _ => ?_
      by_cases hk : key a = k
      · simp [hk, hnew]
      · simp [hk]
    rw [hfirst, hrest]
    exact (ih hnodup).append_left _

/-- **The groups of a list make up the list**, in whatever order they are visited. -/
theorem flatten_perm (key : α → κ) (l : List α) {order : List κ} (h : order.Perm (collect key l).order) :
    ((collect key l).flatten order).Perm l := by
  have hcollected := collected key l
  have hperm := flatMap_filter_perm key l (h.nodup_iff.mpr hcollected.nodup)
  have hall : (l.filter fun a => decide (key a ∈ order)) = l := by
    refine List.filter_eq_self.mpr fun a ha => ?_
    rw [decide_eq_true_eq, h.mem_iff, hcollected.order]
    exact ⟨a, ha, rfl⟩
  rw [hall] at hperm
  unfold flatten
  rwa [funext hcollected.group]

/-- **The elements of one key stand together.** -/
theorem flatten_contiguous (key : α → κ) (l : List α) {order : List κ} (h : order.Nodup) :
    Contiguous key ((collect key l).flatten order) := by
  refine contiguous_flatMap (fun k a ha => ?_) h
  rw [(collected key l).group, List.mem_filter, decide_eq_true_eq] at ha
  exact ha.2

end Groups

end Cybou.Library
