import Mathlib.Data.List.Basic

/-! # A list cut into pieces and put together again

`pieces` cuts after every `unit` elements.  `join` takes pieces off a stream until it holds
the announced number of elements; an empty piece, or one that goes over the announced
number, is refused, so it never looks at more pieces than elements are announced.
-/

namespace Cybou.Library

variable {α β : Type}

/-! ### Cutting -/

/-- The list, cut after every `unit` elements. -/
def pieces (unit : Nat) (l : List α) : List (List α) :=
  if l = [] ∨ unit = 0 then [] else l.take unit :: pieces unit (l.drop unit)
termination_by l.length
decreasing_by
  rename_i h
  obtain ⟨hl, hunit⟩ := not_or.mp h
  have := List.length_pos_iff.mpr hl
  rw [List.length_drop]
  omega

theorem pieces_nil (unit : Nat) : pieces unit ([] : List α) = [] := by
  rw [pieces, if_pos (.inl rfl)]

theorem pieces_flatten {unit : Nat} (hunit : 0 < unit) (l : List α) : (pieces unit l).flatten = l := by
  fun_induction pieces unit l with
  | case1 l h =>
    rw [h.resolve_right (by omega)]
    rfl
  | case2 l h ih => rw [List.flatten_cons, ih, List.take_append_drop]

theorem ne_nil_of_mem_pieces {unit : Nat} {l p : List α} (hp : p ∈ pieces unit l) : p ≠ [] := by
  fun_induction pieces unit l with
  | case1 l h => cases hp
  | case2 l h ih =>
    obtain ⟨hl, hunit⟩ := not_or.mp h
    rcases List.mem_cons.mp hp with rfl | hp
    · rw [ne_eq, List.take_eq_nil_iff]
      tauto
    · exact ih hp

theorem length_le_of_mem_pieces {unit : Nat} {l p : List α} (hp : p ∈ pieces unit l) : p.length ≤ unit := by
  fun_induction pieces unit l with
  | case1 l h => cases hp
  | case2 l h ih =>
    rcases List.mem_cons.mp hp with rfl | hp
    · exact List.length_take_le unit l
    · exact ih hp

/-! ### Joining -/

inductive JoinEnd where
  /-- The announced number of elements is there. -/
  | complete
  /-- A piece was out of place, empty or too long. -/
  | refused
  /-- The stream ran out. -/
  | starved
deriving DecidableEq, Repr

/-- How a join ended, the elements it holds and the stream it has not looked at. -/
structure Joined (α β : Type) where
  status : JoinEnd
  whole : List α
  rest : List β

/-- Take pieces off the stream until `size` elements are there. -/
def join (piece : β → Option (List α)) (size : Nat) : List α → List β → Joined α β
  | got, [] => if size ≤ got.length then ⟨.complete, got, []⟩ else ⟨.starved, got, []⟩
  | got, x :: rest =>
    if size ≤ got.length then ⟨.complete, got, x :: rest⟩
    else match piece x with
      | none => ⟨.refused, got, rest⟩
      | some p => if p = [] ∨ p.length > size - got.length then ⟨.refused, got, rest⟩
        else join piece size (got ++ p) rest

section

variable {piece : β → Option (List α)} {size : Nat} {got : List α}

theorem join_of_full (stream : List β) (h : size ≤ got.length) :
    join piece size got stream = ⟨.complete, got, stream⟩ := by
  cases stream with
  | nil => rw [join, if_pos h]
  | cons x rest => rw [join, if_pos h]

theorem join_append (items : List β) (rest : List β) {parts : List (List α)}
    (hparts : items.map piece = parts.map some) (hne : ∀ p ∈ parts, p ≠ [])
    (hsize : got.length + parts.flatten.length = size) :
    join piece size got (items ++ rest) = ⟨.complete, got ++ parts.flatten, rest⟩ := by
  induction items generalizing got parts with
  | nil =>
    obtain rfl : parts = [] := List.map_eq_nil_iff.mp hparts.symm
    rw [List.flatten_nil, List.append_nil, List.nil_append]
    exact join_of_full rest (by simpa using Nat.le_of_eq hsize.symm)
  | cons x items ih =>
    obtain ⟨p, parts, rfl⟩ : ∃ p parts', parts = p :: parts' := by
      cases parts with
      | nil => cases hparts
      | cons p parts => exact ⟨p, parts, rfl⟩
    rw [List.map_cons, List.map_cons, List.cons.injEq] at hparts
    have hp := List.length_pos_iff.mpr (hne p List.mem_cons_self)
    rw [List.flatten_cons, List.length_append] at hsize
    rw [List.cons_append, join, if_neg (by omega), hparts.1]
    dsimp only
    rw [if_neg (not_or.mpr ⟨hne p List.mem_cons_self, by omega⟩),
      ih hparts.2 (fun q hq => hne q (List.mem_cons_of_mem _ hq)) (by rw [List.length_append]; omega),
      List.flatten_cons, List.append_assoc]

theorem join_reads (stream : List β) (h : got.length ≤ size) :
    ∃ used, stream = used ++ (join piece size got stream).rest ∧ used.length ≤ size - got.length := by
  induction stream generalizing got with
  | nil =>
    rw [join]
    split
    · exact ⟨[], rfl, Nat.zero_le _⟩
    · exact ⟨[], rfl, Nat.zero_le _⟩
  | cons x rest ih =>
    rw [join]
    split
    · exact ⟨[], rfl, Nat.zero_le _⟩
    next hmissing =>
    cases piece x with
    | none => exact ⟨[x], rfl, by rw [List.length_singleton]; omega⟩
    | some p =>
      dsimp only
      split
      · exact ⟨[x], rfl, by rw [List.length_singleton]; omega⟩
      next hp =>
      obtain ⟨hne, hfits⟩ := not_or.mp hp
      have hpos := List.length_pos_iff.mpr hne
      have hlength : (got ++ p).length = got.length + p.length := List.length_append
      obtain ⟨used, hused, hbound⟩ := @ih (got ++ p) (by omega)
      refine ⟨x :: used, by rw [List.cons_append, ← hused], ?_⟩
      rw [List.length_cons]
      omega

theorem join_complete {stream rest : List β} {whole : List α} (h : got.length ≤ size)
    (hjoin : join piece size got stream = ⟨.complete, whole, rest⟩) :
    whole.length = size ∧ ∃ (used : List β) (parts : List (List α)), stream = used ++ rest ∧
      used.map piece = parts.map some ∧ whole = got ++ parts.flatten := by
  induction stream generalizing got with
  | nil =>
    rw [join] at hjoin
    split at hjoin
    next hfull =>
      cases hjoin
      exact ⟨by omega, [], [], rfl, rfl, (List.append_nil _).symm⟩
    · cases hjoin
  | cons x stream ih =>
    rw [join] at hjoin
    split at hjoin
    next hfull =>
      cases hjoin
      exact ⟨by omega, [], [], rfl, rfl, (List.append_nil _).symm⟩
    next hmissing =>
    cases hx : piece x with
    | none =>
      rw [hx] at hjoin
      cases hjoin
    | some p =>
      rw [hx] at hjoin
      dsimp only at hjoin
      split at hjoin
      · cases hjoin
      next hp =>
      obtain ⟨-, hfits⟩ := not_or.mp hp
      have hlength : (got ++ p).length = got.length + p.length := List.length_append
      obtain ⟨hwhole, used, parts, hused, hparts, heq⟩ := ih (by omega) hjoin
      refine ⟨hwhole, x :: used, p :: parts, by rw [hused, List.cons_append], ?_, ?_⟩
      · rw [List.map_cons, List.map_cons, hx, hparts]
      · rw [heq, List.flatten_cons, List.append_assoc]

end

end Cybou.Library
