import Cybou.ParameterBounds

/-! # Rent accruals (`AccrueStorageRent` of `storage_economy.cpp`)

An accumulator holds whole CYBOU and the remainder of a numerator over
`STORAGE_RENT_DENOMINATOR`.  An accrual that succeeds adds its exact numerator to the two
together, so it does not matter how a period is cut into accruals.  What the length of a
single accrual decides is whether its checked products fit.
-/

namespace Cybou

/-! ### The function -/

def STORAGE_RATE_CYBOU_PER_GIB_DAY_REPLICA : UInt64 := 5

/-- `STORAGE_RENT_DENOMINATOR` as the 64-bit number that the code divides by. -/
def rentDenominator : UInt64 := UInt64.ofNat STORAGE_RENT_DENOMINATOR

structure StorageRentAccumulator where
  cybou : UInt64
  remainder : UInt64
deriving DecidableEq, Repr

/-- The checked products of `AccrueStorageRent`. -/
def rentNumerator (units seconds replicas : UInt64) : Option UInt64 := do
  let numerator ← checkedMul units seconds
  let numerator ← checkedMul numerator replicas
  checkedMul numerator STORAGE_RATE_CYBOU_PER_GIB_DAY_REPLICA

def accrueStorageRent (accumulator : StorageRentAccumulator) (units seconds replicas : UInt64) :
    Bool × StorageRentAccumulator :=
  if accumulator.remainder ≥ rentDenominator then (false, accumulator)
  else
    match rentNumerator units seconds replicas with
    | none => (false, accumulator)
    | some numerator =>
      let whole := numerator / rentDenominator
      let remainder := numerator % rentDenominator + accumulator.remainder
      let carry := remainder / rentDenominator
      if whole > UINT64_MAX - carry ∨ accumulator.cybou > UINT64_MAX - whole - carry then
        (false, accumulator)
      else
        (true, { cybou := accumulator.cybou + (whole + carry), remainder := remainder % rentDenominator })

def accruals (units replicas : UInt64) :
    StorageRentAccumulator → List UInt64 → Bool × StorageRentAccumulator
  | accumulator, [] => (true, accumulator)
  | accumulator, seconds :: rest =>
    let (ok, accumulator) := accrueStorageRent accumulator units seconds replicas
    let (oks, accumulator) := accruals units replicas accumulator rest
    (ok && oks, accumulator)

/-! ### What one accrual adds -/

def StorageRentAccumulator.parts (accumulator : StorageRentAccumulator) : Nat :=
  accumulator.cybou.toNat * STORAGE_RENT_DENOMINATOR + accumulator.remainder.toNat

def StorageRentAccumulator.Carried (accumulator : StorageRentAccumulator) : Prop :=
  accumulator.remainder.toNat < STORAGE_RENT_DENOMINATOR

def rentParts (units replicas : UInt64) (seconds : Nat) : Nat :=
  units.toNat * seconds * replicas.toNat * STORAGE_RATE_CYBOU_PER_GIB_DAY_REPLICA.toNat

/-- No product of an accrual overflows. -/
structure RentFits (units replicas : UInt64) (seconds : Nat) : Prop where
  unitSeconds : units.toNat * seconds < 2 ^ 64
  replicaSeconds : units.toNat * seconds * replicas.toNat < 2 ^ 64
  numerator : rentParts units replicas seconds < 2 ^ 64

section

variable {accumulator accumulator' : StorageRentAccumulator} {units seconds replicas : UInt64}

theorem rentDenominator_toNat : rentDenominator.toNat = STORAGE_RENT_DENOMINATOR := by decide

theorem StorageRentAccumulator.Carried.ext (h : accumulator.Carried) (h' : accumulator'.Carried)
    (hparts : accumulator.parts = accumulator'.parts) : accumulator = accumulator' := by
  unfold Carried STORAGE_RENT_DENOMINATOR at h h'
  unfold parts STORAGE_RENT_DENOMINATOR at hparts
  rcases accumulator with ⟨cybou, remainder⟩
  rcases accumulator' with ⟨cybou', remainder'⟩
  dsimp only at h h' hparts
  obtain rfl : cybou = cybou' := UInt64.toNat_inj.mp (by omega)
  obtain rfl : remainder = remainder' := UInt64.toNat_inj.mp (by omega)
  rfl

theorem rentNumerator_of_fits (h : RentFits units replicas seconds.toNat) :
    ∃ numerator, rentNumerator units seconds replicas = some numerator ∧
      numerator.toNat = rentParts units replicas seconds.toNat := by
  obtain ⟨hunits, hreplicas, hrate⟩ := h
  unfold rentParts at hrate ⊢
  have hfirst := toNat_mul_of_lt hunits
  rw [← hfirst] at hreplicas hrate ⊢
  have hsecond := toNat_mul_of_lt hreplicas
  rw [← hsecond] at hrate ⊢
  refine ⟨units * seconds * replicas * STORAGE_RATE_CYBOU_PER_GIB_DAY_REPLICA, ?_, toNat_mul_of_lt hrate⟩
  unfold rentNumerator
  rw [checkedMul_eq, if_pos hunits, Option.bind_eq_bind, Option.bind_some, checkedMul_eq, if_pos hreplicas,
    Option.bind_some, checkedMul_eq, if_pos hrate]

theorem rentNumerator_of_not_fits (h : ¬RentFits units replicas seconds.toNat) :
    rentNumerator units seconds replicas = none := by
  unfold rentNumerator
  rw [checkedMul_eq]
  by_cases hunits : units.toNat * seconds.toNat < 2 ^ 64
  · rw [if_pos hunits, Option.bind_eq_bind, Option.bind_some, checkedMul_eq, toNat_mul_of_lt hunits]
    by_cases hreplicas : units.toNat * seconds.toNat * replicas.toNat < 2 ^ 64
    · rw [if_pos hreplicas, Option.bind_some, checkedMul_eq,
        toNat_mul_of_lt (by rwa [toNat_mul_of_lt hunits]), toNat_mul_of_lt hunits]
      exact if_neg fun hrate => h ⟨hunits, hreplicas, hrate⟩
    · rw [if_neg hreplicas]
      rfl
  · rw [if_neg hunits]
    rfl

theorem carry_guard {cybou whole carry : UInt64} :
    (whole > UINT64_MAX - carry ∨ cybou > UINT64_MAX - whole - carry) ↔
      2 ^ 64 ≤ cybou.toNat + (whole.toNat + carry.toNat) := by
  have hmax := toNat_UINT64_MAX
  have hwhole := whole.toNat_lt
  have hcarry := carry.toNat_lt
  have hcybou := cybou.toNat_lt
  have hrest : (UINT64_MAX - carry).toNat = UINT64_MAX.toNat - carry.toNat := by
    refine UInt64.toNat_sub_of_le _ _ (UInt64.le_iff_toNat_le.mpr ?_)
    omega
  have hless : (UINT64_MAX - whole).toNat = UINT64_MAX.toNat - whole.toNat := by
    refine UInt64.toNat_sub_of_le _ _ (UInt64.le_iff_toNat_le.mpr ?_)
    omega
  by_cases hfits : whole > UINT64_MAX - carry
  · refine iff_of_true (.inl hfits) ?_
    rw [gt_iff_lt, UInt64.lt_iff_toNat_lt, hrest] at hfits
    omega
  · rw [or_iff_right hfits]
    rw [gt_iff_lt, UInt64.lt_iff_toNat_lt, hrest] at hfits
    have hboth : (UINT64_MAX - whole - carry).toNat = UINT64_MAX.toNat - whole.toNat - carry.toNat := by
      rw [UInt64.toNat_sub_of_le _ _ (UInt64.le_iff_toNat_le.mpr (by omega)), hless]
    rw [gt_iff_lt, UInt64.lt_iff_toNat_lt, hboth]
    omega

theorem le_parts_of_le_whole {bound cybou numerator remainder denominator : Nat}
    (h : bound ≤ cybou + (numerator / denominator + (numerator % denominator + remainder) / denominator)) :
    bound * denominator ≤ cybou * denominator + (remainder + numerator) := by
  have hdivided := Nat.div_add_mod numerator denominator
  have hcarried := Nat.div_mul_le_self (numerator % denominator + remainder) denominator
  calc bound * denominator
      ≤ (cybou + (numerator / denominator + (numerator % denominator + remainder) / denominator)) * denominator :=
        Nat.mul_le_mul_right denominator h
    _ = cybou * denominator + (denominator * (numerator / denominator) +
          (numerator % denominator + remainder) / denominator * denominator) := by ring
    _ ≤ cybou * denominator + (remainder + numerator) := by omega

/-- **What one accrual does**: it adds its exact numerator, or leaves the accumulator as it was
    because a product or the sum does not fit. -/
theorem accrueStorageRent_cases (hcarried : accumulator.Carried) (units seconds replicas : UInt64) :
    (∃ accumulator', accrueStorageRent accumulator units seconds replicas = (true, accumulator') ∧
      accumulator'.Carried ∧ RentFits units replicas seconds.toNat ∧
      accumulator'.parts = accumulator.parts + rentParts units replicas seconds.toNat) ∨
    (accrueStorageRent accumulator units seconds replicas = (false, accumulator) ∧
      (¬RentFits units replicas seconds.toNat ∨ 2 ^ 64 * STORAGE_RENT_DENOMINATOR ≤
        accumulator.parts + rentParts units replicas seconds.toNat)) := by
  have hremainder : ¬accumulator.remainder ≥ rentDenominator := by
    rw [ge_iff_le, UInt64.le_iff_toNat_le, rentDenominator_toNat, not_le]
    exact hcarried
  unfold accrueStorageRent
  rw [if_neg hremainder]
  by_cases hfits : RentFits units replicas seconds.toNat
  · obtain ⟨numerator, hnumerator, hparts⟩ := rentNumerator_of_fits hfits
    rw [hnumerator, ← hparts]
    have hlt := numerator.toNat_lt
    have hsum : (numerator % rentDenominator + accumulator.remainder).toNat =
        numerator.toNat % STORAGE_RENT_DENOMINATOR + accumulator.remainder.toNat := by
      rw [UInt64.toNat_add, UInt64.toNat_mod, rentDenominator_toNat, Nat.mod_eq_of_lt]
      unfold StorageRentAccumulator.Carried STORAGE_RENT_DENOMINATOR at hcarried
      unfold STORAGE_RENT_DENOMINATOR
      omega
    dsimp only
    by_cases hguard : numerator / rentDenominator > UINT64_MAX -
          (numerator % rentDenominator + accumulator.remainder) / rentDenominator ∨
        accumulator.cybou > UINT64_MAX - numerator / rentDenominator -
          (numerator % rentDenominator + accumulator.remainder) / rentDenominator
    · rw [if_pos hguard]
      refine .inr ⟨rfl, .inr ?_⟩
      rw [carry_guard, UInt64.toNat_div, UInt64.toNat_div, hsum, rentDenominator_toNat] at hguard
      unfold StorageRentAccumulator.parts
      rw [Nat.add_assoc]
      exact le_parts_of_le_whole hguard
    · rw [if_neg hguard]
      rw [carry_guard, UInt64.toNat_div, UInt64.toNat_div, hsum, rentDenominator_toNat, not_le] at hguard
      refine .inl ⟨_, rfl, ?_, hfits, ?_⟩
      · unfold StorageRentAccumulator.Carried
        dsimp only
        rw [UInt64.toNat_mod, rentDenominator_toNat]
        exact Nat.mod_lt _ (by decide)
      · have hwhole : (numerator / rentDenominator +
            (numerator % rentDenominator + accumulator.remainder) / rentDenominator).toNat =
            numerator.toNat / STORAGE_RENT_DENOMINATOR + (numerator.toNat % STORAGE_RENT_DENOMINATOR +
              accumulator.remainder.toNat) / STORAGE_RENT_DENOMINATOR := by
          rw [UInt64.toNat_add, UInt64.toNat_div, UInt64.toNat_div, hsum, rentDenominator_toNat,
            Nat.mod_eq_of_lt (by omega)]
        unfold StorageRentAccumulator.parts
        dsimp only
        rw [UInt64.toNat_add, hwhole, UInt64.toNat_mod, hsum, rentDenominator_toNat,
          Nat.mod_eq_of_lt (by omega)]
        unfold STORAGE_RENT_DENOMINATOR
        omega
  · rw [rentNumerator_of_not_fits hfits]
    exact .inr ⟨rfl, .inl hfits⟩

theorem accrueStorageRent_failed (h : (accrueStorageRent accumulator units seconds replicas).1 = false) :
    (accrueStorageRent accumulator units seconds replicas).2 = accumulator := by
  unfold accrueStorageRent at h ⊢
  by_cases hremainder : accumulator.remainder ≥ rentDenominator
  · rw [if_pos hremainder]
  · rw [if_neg hremainder] at h ⊢
    cases hnumerator : rentNumerator units seconds replicas with
    | none => rfl
    | some numerator =>
      rw [hnumerator] at h
      dsimp only at h ⊢
      rw [ite_eq_left_iff.mpr]
      intro hfits
      rw [if_neg hfits] at h
      cases h

theorem accrueStorageRent_of_parts (hcarried : accumulator.Carried) (hcarried' : accumulator'.Carried)
    (hfits : RentFits units replicas seconds.toNat)
    (hparts : accumulator'.parts = accumulator.parts + rentParts units replicas seconds.toNat) :
    accrueStorageRent accumulator units seconds replicas = (true, accumulator') := by
  rcases accrueStorageRent_cases hcarried units seconds replicas with ⟨result, hresult, hnormal, -, hsum⟩ | ⟨-, hrefused⟩
  · rw [hresult, hnormal.ext hcarried' (hsum.trans hparts.symm)]
  · rcases hrefused with hproduct | hlarge
    · exact absurd hfits hproduct
    · have hcybou := accumulator'.cybou.toNat_lt
      unfold StorageRentAccumulator.Carried at hcarried'
      rw [← hparts] at hlarge
      unfold StorageRentAccumulator.parts at hlarge
      have hless : accumulator'.cybou.toNat * STORAGE_RENT_DENOMINATOR + accumulator'.remainder.toNat <
          2 ^ 64 * STORAGE_RENT_DENOMINATOR :=
        calc accumulator'.cybou.toNat * STORAGE_RENT_DENOMINATOR + accumulator'.remainder.toNat
            < accumulator'.cybou.toNat * STORAGE_RENT_DENOMINATOR + STORAGE_RENT_DENOMINATOR :=
              Nat.add_lt_add_left hcarried' _
          _ = (accumulator'.cybou.toNat + 1) * STORAGE_RENT_DENOMINATOR := (Nat.succ_mul _ _).symm
          _ ≤ 2 ^ 64 * STORAGE_RENT_DENOMINATOR := Nat.mul_le_mul_right _ hcybou
      exact absurd hlarge (not_le.mpr hless)

end

/-! ### Accruals one after another -/

section

variable {accumulator : StorageRentAccumulator} {units replicas : UInt64}

theorem accruals_carried (hcarried : accumulator.Carried) (units replicas : UInt64) (seconds : List UInt64) :
    (accruals units replicas accumulator seconds).2.Carried := by
  induction seconds generalizing accumulator with
  | nil => exact hcarried
  | cons first rest ih =>
    rcases accrueStorageRent_cases hcarried units first replicas with
      ⟨next, hnext, hnormal, -, -⟩ | ⟨hsame, -⟩
    · rw [accruals, hnext]
      exact ih hnormal
    · rw [accruals, hsame]
      exact ih hcarried

theorem accruals_parts (hcarried : accumulator.Carried) {seconds : List UInt64}
    (hall : (accruals units replicas accumulator seconds).1 = true) :
    (accruals units replicas accumulator seconds).2.parts =
      accumulator.parts + rentParts units replicas (seconds.map UInt64.toNat).sum := by
  induction seconds generalizing accumulator with
  | nil => simp [accruals, rentParts]
  | cons first rest ih =>
    rcases accrueStorageRent_cases hcarried units first replicas with
      ⟨next, hnext, hnormal, -, hsum⟩ | ⟨hsame, -⟩
    · rw [accruals, hnext] at hall ⊢
      dsimp only at hall ⊢
      rw [ih hnormal (by simpa using hall), hsum, List.map_cons, List.sum_cons, rentParts, rentParts, rentParts,
        Nat.mul_add, Nat.add_mul, Nat.add_mul, Nat.add_assoc]
    · rw [accruals, hsame] at hall
      cases hall

/-- **How a period is cut does not matter.**  A call that fails changes nothing and the remainder
    stays below the denominator.  Accruals that all succeed add exactly the rent of their total
    length, which is what one call over that length leaves where its products fit; where they do
    not, that one call is refused. -/
theorem accruals_split_invariant (hcarried : accumulator.Carried) {seconds : List UInt64} {total : UInt64}
    (htotal : total.toNat = (seconds.map UInt64.toNat).sum) :
    (accruals units replicas accumulator seconds).2.Carried ∧
    (∀ first, (accrueStorageRent accumulator units first replicas).1 = false →
      (accrueStorageRent accumulator units first replicas).2 = accumulator) ∧
    ((accruals units replicas accumulator seconds).1 = true →
      (accruals units replicas accumulator seconds).2.parts =
        accumulator.parts + rentParts units replicas total.toNat ∧
      (RentFits units replicas total.toNat → accrueStorageRent accumulator units total replicas =
        (true, (accruals units replicas accumulator seconds).2)) ∧
      (¬RentFits units replicas total.toNat →
        accrueStorageRent accumulator units total replicas = (false, accumulator))) := by
  have hnormal := accruals_carried hcarried units replicas seconds
  refine ⟨hnormal, fun first => accrueStorageRent_failed, fun hall => ?_⟩
  have hparts := accruals_parts hcarried hall
  rw [← htotal] at hparts
  refine ⟨hparts, fun hfits => accrueStorageRent_of_parts hcarried hnormal hfits hparts, fun hfits => ?_⟩
  rcases accrueStorageRent_cases hcarried units total replicas with
    ⟨-, -, -, hfit, -⟩ | ⟨hsame, -⟩
  · exact absurd hfit hfits
  · exact hsame

end

/-- Two accruals that succeed over a time that is too long for one. -/
theorem accruals_outlast_one_call :
    ¬∀ (accumulator : StorageRentAccumulator) (units replicas total : UInt64) (seconds : List UInt64),
      accumulator.Carried → total.toNat = (seconds.map UInt64.toNat).sum →
      (accruals units replicas accumulator seconds).1 = true →
      (accrueStorageRent accumulator units total replicas).2 =
        (accruals units replicas accumulator seconds).2 := by
  intro hall
  have heq := hall ⟨0, 0⟩ 1 1 6000000000000000000 [3000000000000000000, 3000000000000000000]
    (by unfold StorageRentAccumulator.Carried; decide) (by decide) (by decide)
  revert heq
  decide

theorem accruals_split_invariant_sample :
    (accrueStorageRent ⟨7, 176947199⟩ 2048 86400 3).1 = true ∧
    accrueStorageRent ⟨7, 176947199⟩ 2048 86400 3 =
      (true, (accruals 2048 3 ⟨7, 176947199⟩ [1, 400, 85999]).2) := by
  have h := @accruals_split_invariant ⟨7, 176947199⟩ 2048 3 (by unfold StorageRentAccumulator.Carried; decide)
    [1, 400, 85999] 86400 (by decide)
  have hone := (h.2.2 (by decide)).2.1 ⟨by decide, by decide, by decide⟩
  exact ⟨by rw [hone], hone⟩

end Cybou
