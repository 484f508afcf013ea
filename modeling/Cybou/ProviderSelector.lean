import Cybou.AssignmentDraw
import Cybou.PlacementRecords
import Cybou.Library.Groups

/-! # The order in which providers are tried (`storage_provider_selector.cpp`)

Providers are shuffled, collected by their economic identity, and visited group by group in
a shuffled order of the groups.  A draw that would favour low numbers is made again, so what
the system random number generator returns is a sequence of draws that a shuffle uses up.
-/

namespace Cybou

open Library

/-- What `RAND_bytes` returns, call after call; nothing where it fails. -/
abbrev RandomDraws := List (Option UInt64)

namespace ProviderSelector

def economicIdentity (provider : StorageEndpoint) : FixedBytes 32 := provider.payoutAccount.getD provider.storageId

/-- The rejection loop of `ShuffleItems`: a draw below `limit`, nothing where the generator
    fails, and the draws that are left; `none` while it waits for another draw. -/
def drawBelowLimit (limit : UInt64) : RandomDraws → Option (Option UInt64 × RandomDraws)
  | [] => none
  | none :: draws => some (none, draws)
  | some draw :: draws => if draw ≥ limit then drawBelowLimit limit draws else some (some draw, draws)

section

variable {α : Type}

def shuffleLoop : Nat → Array α → RandomDraws → Option (Bool × Array α × RandomDraws)
  | 0, items, draws => some (true, items, draws)
  | size + 1, items, draws =>
    if size = 0 then some (true, items, draws)
    else
      let bound := UInt64.ofNat (size + 1)
      let limit := UINT64_MAX - UINT64_MAX % bound
      match drawBelowLimit limit draws with
      | none => none
      | some (none, draws) => some (false, items, draws)
      | some (some draw, draws) => shuffleLoop size (items.swapIfInBounds size (draw % bound).toNat) draws

def shuffleItems (items : List α) (draws : RandomDraws) : Option (Bool × List α × RandomDraws) :=
  (shuffleLoop items.length items.toArray draws).map fun result => (result.1, result.2.1.toList, result.2.2)

end

def orderProviders (providers : List StorageEndpoint) (draws : RandomDraws) : Option (Bool × List StorageEndpoint) :=
  match shuffleItems providers draws with
  | none => none
  | some (shuffled, providers, draws) =>
    let groups := Groups.collect economicIdentity providers
    if shuffled = false then some (false, groups.flatten groups.order)
    else
      match shuffleItems groups.order draws with
      | none => none
      | some (shuffled, order, _) => some (shuffled, groups.flatten order)

/-! ### Shuffles permute -/

variable {α : Type} {draws : RandomDraws}

theorem shuffleLoop_perm {size : Nat} {items : Array α}
    {result : Bool × Array α × RandomDraws} (h : shuffleLoop size items draws = some result) :
    result.2.1.toList.Perm items.toList := by
  induction size generalizing items draws with
  | zero =>
    cases h
    exact .refl _
  | succ size ih =>
    rw [shuffleLoop] at h
    split at h
    · cases h
      exact .refl _
    · dsimp only at h
      split at h
      · cases h
      · cases h
        exact .refl _
      · exact (ih h).trans (swapIfInBounds_perm items _ _)

variable {ok : Bool}

theorem shuffleItems_perm {items items' : List α} {draws' : RandomDraws}
    (h : shuffleItems items draws = some (ok, items', draws')) : items'.Perm items := by
  unfold shuffleItems at h
  rw [Option.map_eq_some_iff] at h
  obtain ⟨⟨ok', shuffled, rest⟩, hloop, heq⟩ := h
  obtain ⟨-, hitems⟩ := Prod.mk.inj heq
  obtain ⟨rfl, -⟩ := Prod.mk.inj hitems
  exact shuffleLoop_perm hloop

variable {providers : List StorageEndpoint}

/-- **The order of the providers**: all of them, and those of one economic identity together. -/
theorem orderProviders_spec {ordered : List StorageEndpoint}
    (h : orderProviders providers draws = some (ok, ordered)) :
    ordered.Perm providers ∧ Contiguous economicIdentity ordered := by
  unfold orderProviders at h
  cases hshuffle : shuffleItems providers draws with
  | none =>
    rw [hshuffle] at h
    cases h
  | some result =>
    obtain ⟨shuffled, items, rest⟩ := result
    have hitems := shuffleItems_perm hshuffle
    rw [hshuffle] at h
    dsimp only at h
    split at h
    · obtain ⟨-, rfl⟩ := Prod.mk.inj (Option.some.inj h)
      exact ⟨(Groups.flatten_perm economicIdentity items (.refl _)).trans hitems,
        Groups.flatten_contiguous economicIdentity items (Groups.collected economicIdentity items).nodup⟩
    · cases horder : shuffleItems (Groups.collect economicIdentity items).order rest with
      | none =>
        rw [horder] at h
        cases h
      | some result =>
        obtain ⟨shuffled', order, rest'⟩ := result
        have hperm := shuffleItems_perm horder
        rw [horder] at h
        obtain ⟨-, rfl⟩ := Prod.mk.inj (Option.some.inj h)
        exact ⟨(Groups.flatten_perm economicIdentity items hperm).trans hitems,
          Groups.flatten_contiguous economicIdentity items
            (hperm.nodup_iff.mpr (Groups.collected economicIdentity items).nodup)⟩

/-! ### Shuffles end -/

/-- Draws that no shuffle of up to 2^63 items rejects. -/
def Acceptable (draws : RandomDraws) : Prop := ∀ draw, some draw ∈ draws → draw.toNat < 2 ^ 63

theorem drawBelowLimit_of_acceptable {limit : UInt64} (hlimit : 2 ^ 63 ≤ limit.toNat)
    (hdraws : Acceptable draws) (hne : draws ≠ []) :
    ∃ draw, draws.head? = some draw ∧ drawBelowLimit limit draws = some (draw, draws.tail) := by
  cases draws with
  | nil => exact absurd rfl hne
  | cons first draws =>
    refine ⟨first, rfl, ?_⟩
    cases first with
    | none => rfl
    | some draw =>
      have hdraw := hdraws draw List.mem_cons_self
      rw [drawBelowLimit, if_neg (by rw [ge_iff_le, UInt64.le_iff_toNat_le]; omega)]
      rfl

theorem le_drawLimit {size : Nat} (hsize : size < 2 ^ 63) :
    2 ^ 63 ≤ (UINT64_MAX - UINT64_MAX % UInt64.ofNat (size + 1)).toNat := by
  have hmax := toNat_UINT64_MAX
  have hwidth : UInt64.size = 2 ^ 64 := rfl
  have hbound : (UInt64.ofNat (size + 1)).toNat = size + 1 := UInt64.toNat_ofNat_of_lt' (by omega)
  have hmod : (UINT64_MAX % UInt64.ofNat (size + 1)).toNat = UINT64_MAX.toNat % (size + 1) := by
    rw [UInt64.toNat_mod, hbound]
  have hlt : UINT64_MAX.toNat % (size + 1) < size + 1 := Nat.mod_lt _ (Nat.succ_pos size)
  have hle := Nat.mod_le UINT64_MAX.toNat (size + 1)
  rw [UInt64.toNat_sub_of_le _ _ (UInt64.le_iff_toNat_le.mpr (by omega)), hmod]
  omega

/-- **A shuffle ends** when the generator returns a draw for each of its swaps. -/
theorem shuffleLoop_ends {α : Type} {size : Nat} {items : Array α} {draws : RandomDraws} (hsize : size ≤ 2 ^ 63)
    (hdraws : Acceptable draws) (hlength : size ≤ draws.length) :
    ∃ result, shuffleLoop size items draws = some result ∧ Acceptable result.2.2 ∧
      draws.length ≤ result.2.2.length + size := by
  induction size generalizing items draws with
  | zero => exact ⟨_, rfl, hdraws, Nat.le_refl _⟩
  | succ size ih =>
    rw [shuffleLoop]
    split
    · exact ⟨_, rfl, hdraws, Nat.le_add_right _ _⟩
    · cases draws with
      | nil => cases hlength
      | cons first draws =>
        have hrest : Acceptable draws := fun draw hdraw => hdraws draw (List.mem_cons_of_mem _ hdraw)
        obtain ⟨draw, -, hdraw⟩ := drawBelowLimit_of_acceptable (@le_drawLimit size (by omega)) hdraws (List.cons_ne_nil _ _)
        rw [List.length_cons] at hlength
        rw [List.tail_cons] at hdraw
        dsimp only
        rw [hdraw]
        cases draw with
        | none => exact ⟨_, rfl, hrest, by dsimp only; rw [List.length_cons]; omega⟩
        | some draw =>
          obtain ⟨result, hresult, hacceptable, hleft⟩ := ih (by omega) hrest (by omega)
          refine ⟨result, hresult, hacceptable, ?_⟩
          rw [List.length_cons]
          omega

theorem shuffleItems_ends {α : Type} {items : List α} {draws : RandomDraws} (hsize : items.length ≤ 2 ^ 63)
    (hdraws : Acceptable draws) (hlength : items.length ≤ draws.length) :
    ∃ result, shuffleItems items draws = some result ∧ Acceptable result.2.2 ∧
      draws.length ≤ result.2.2.length + items.length := by
  obtain ⟨result, hresult, hacceptable, hleft⟩ := @shuffleLoop_ends α items.length items.toArray draws hsize hdraws hlength
  exact ⟨_, Option.map_eq_some_iff.mpr ⟨result, hresult, rfl⟩, hacceptable, hleft⟩

/-- **The ordering ends** when the generator returns a draw for each provider and each group. -/
theorem orderProviders_ends (hsize : providers.length ≤ 2 ^ 63)
    (hdraws : Acceptable draws) (hlength : 2 * providers.length ≤ draws.length) :
    ∃ result, orderProviders providers draws = some result := by
  obtain ⟨⟨shuffled, items, rest⟩, hshuffle, hrest, hleft⟩ := shuffleItems_ends hsize hdraws (by omega)
  have hitems := (shuffleItems_perm hshuffle).length_eq
  have hgroups := (Groups.collected economicIdentity items).length_le
  unfold orderProviders
  rw [hshuffle]
  dsimp only
  split
  · exact ⟨_, rfl⟩
  · obtain ⟨result, horder, -⟩ := @shuffleItems_ends _ (Groups.collect economicIdentity items).order rest (by omega) hrest
      (by dsimp only at hleft; omega)
    rw [horder]
    exact ⟨_, rfl⟩

end ProviderSelector

end Cybou
