import Cybou.Library.OrdMap
import Cybou.Library.Store

/-! # A store whose keys can be scanned

A finite map takes the batches of a store; read key by key it is that store.
-/

namespace Cybou.Library

namespace OrdMap

variable {K V : Type} [LinearOrder K]

def edit (m : OrdMap K V) : Edit K V → OrdMap K V
  | .put key value => m.set key value
  | .erase key => m.erase key

def apply (m : OrdMap K V) (batch : List (Edit K V)) : OrdMap K V := batch.foldl edit m

def write (m : OrdMap K V) (batch : List (Edit K V)) : Fate → OrdMap K V
  | .done | .stored => m.apply batch
  | .lost => m

theorem find?_edit (m : OrdMap K V) (e : Edit K V) : (m.edit e).find? = Function.update m.find? e.key e.value := by
  funext key
  rw [Function.update_apply]
  cases e with
  | put k v => exact find?_set m k key v
  | erase k => exact find?_erase m k key

theorem find?_edit_self (m : OrdMap K V) (e : Edit K V) : (m.edit e).find? e.key = e.value := by
  rw [find?_edit, Function.update_self]

theorem find?_apply (m : OrdMap K V) (batch : List (Edit K V)) :
    (m.apply batch).find? = Store.apply m.find? batch := by
  induction batch generalizing m with
  | nil => rfl
  | cons e batch ih => rw [Store.apply_cons, ← find?_edit, ← ih, apply, apply, List.foldl_cons]

theorem find?_write (m : OrdMap K V) (batch : List (Edit K V)) (fate : Fate) :
    (m.write batch fate).find? = Store.write m.find? batch fate := by
  cases fate with
  | done => exact find?_apply m batch
  | lost => rfl
  | stored => exact find?_apply m batch

variable {m : OrdMap K V} {batch : List (Edit K V)} {key : K}

theorem find?_write_of_forall_ne
    (h : ∀ e ∈ batch, e.key ≠ key) (fate : Fate) : (m.write batch fate).find? key = m.find? key := by
  rw [find?_write]
  cases fate with
  | done => exact Store.apply_of_forall_ne h
  | lost => rfl
  | stored => exact Store.apply_of_forall_ne h

theorem find?_apply_of_mem
    (herase : ∀ e ∈ batch, e.value = none) (h : key ∈ batch.map Edit.key) : (m.apply batch).find? key = none := by
  rw [find?_apply]
  exact Store.apply_of_mem herase h

theorem find?_apply_of_none
    (herase : ∀ e ∈ batch, e.value = none) (h : m.find? key = none) : (m.apply batch).find? key = none := by
  by_cases hmem : key ∈ batch.map Edit.key
  · exact find?_apply_of_mem herase hmem
  · rw [find?_apply, Store.apply_of_forall_ne, h]
    exact fun e he heq => hmem (List.mem_map.mpr ⟨e, he, heq⟩)

def keysIn (m : OrdMap K V) (range : K → Bool) : List K := (m.entries.map Prod.fst).filter range

theorem mem_keysIn {range : K → Bool} :
    key ∈ m.keysIn range ↔ range key = true ∧ m.find? key ≠ none := by
  rw [keysIn, List.mem_filter, and_comm, List.mem_map]
  refine and_congr_right fun _ => ⟨?_, fun h => ?_⟩
  · rintro ⟨⟨key, value⟩, hmem, rfl⟩
    rw [mem_entries_iff.mp hmem]
    exact nofun
  · obtain ⟨value, hvalue⟩ := Option.ne_none_iff_exists'.mp h
    exact ⟨(key, value), mem_entries_iff.mpr hvalue, rfl⟩

end OrdMap

end Cybou.Library
