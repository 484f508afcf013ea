import Cybou.IngressBudget

/-! # Runs of the ingress budget

A run keeps beside the budget what a reader of its calls would write down: the leases that
are out, the windows that have been opened and the work that was admitted in each.  The
counters of the budget are sums over these, so the quotas hold of the history.
-/

namespace Cybou.P2p

open Library

/-! ### Calls -/

/-- Admitted work, with the window and the second that it was charged to. -/
structure Admission where
  address : Address
  start : Int
  second : Int
  work : Work
  bytes : UInt64
  now : Int

structure IngressRun where
  transfers : Transfers
  budget : IngressBudget
  /-- The addresses of the leases that are out. -/
  leases : List Address
  /-- The windows that were opened. -/
  opened : List (Address × Int)
  log : List Admission
  /-- The time of the last `Admit`. -/
  now : Int

inductive IngressCall where
  | acquire (address : Address)
  /-- The end of a lease that is out. -/
  | release (index : Nat)
  | admitWork (address : Address) (work : Work) (bytes : UInt64) (now : Int)

namespace IngressRun

/-- A budget before its first call. -/
def fresh (now : Int) : IngressRun where
  transfers := { active := ∅, total := 0 }
  budget := { lastCleanup := 0, peers := ∅ }
  leases := []
  opened := []
  log := []
  now := now

/-- `Admit`, written down. -/
def admitWork (run : IngressRun) (address : Address) (work : Work) (bytes : UInt64) (now : Int) : IngressRun :=
  let (admitted, budget) := run.budget.admitWork address work bytes now
  match budget.peers.find? address with
  | none => { run with budget, now }
  | some w =>
    { run with
      budget := budget
      now := now
      opened := if (run.budget.peers.find? address).any (fun old => decide (old.start = w.start)) = true then run.opened
        else (address, w.start) :: run.opened
      log := if admitted = true then
          { address, start := w.start, second := w.second, work, bytes, now } :: run.log
        else run.log }

/-- A call; `none` where there is no such lease, where time goes back, and where a release would
    take a counter below zero. -/
def step (run : IngressRun) : IngressCall → Option IngressRun
  | .acquire address =>
    let (acquired, transfers) := run.transfers.acquire address
    some { run with transfers, leases := if acquired = true then address :: run.leases else run.leases }
  | .release index =>
    (run.leases[index]?).bind fun address =>
      (run.transfers.release address).map fun transfers =>
        { run with transfers, leases := run.leases.eraseIdx index }
  | .admitWork address work bytes now => if run.now ≤ now then some (run.admitWork address work bytes now) else none

def run (start : IngressRun) : List IngressCall → Option IngressRun
  | [] => some start
  | call :: calls => (start.step call).bind fun next => next.run calls

end IngressRun

/-! ### Transfers -/

/-- The counters are those of the leases that are out. -/
structure Transfers.Counts (transfers : Transfers) (leases : List Address) : Prop where
  active : ∀ address, transfers.active.find? address =
    if leases.count address = 0 then none else some (leases.count address)
  total : transfers.total = leases.length
  sum : transfers.active.sum (fun _ count => count) = transfers.total
  each : ∀ address, leases.count address ≤ 2
  all : leases.length ≤ 8

namespace Transfers.Counts

variable {transfers : Transfers} {leases : List Address} {address : Address}

theorem find?_getD (h : transfers.Counts leases) (address : Address) :
    (transfers.active.find? address).getD 0 = leases.count address := by
  rw [h.active]
  by_cases hnone : leases.count address = 0
  · rw [if_pos hnone, hnone]
    rfl
  · rw [if_neg hnone]
    rfl

/-- An acquired slot is counted, a refused one is not. -/
theorem acquire (h : transfers.Counts leases) (address : Address) :
    (transfers.acquire address).2.Counts
      (if (transfers.acquire address).1 = true then address :: leases else leases) := by
  unfold Transfers.acquire
  split
  · exact h
  next hroom =>
  rw [h.find?_getD]
  dsimp only
  split
  next hfull =>
    -- two are out already, so the lookup has found an entry and made none
    have hsome : transfers.active.find? address = some (leases.count address) := by
      rw [h.active, if_neg (by omega)]
    have hsame : transfers.active.set address (leases.count address) = transfers.active := by
      refine OrdMap.ext_find? fun other => ?_
      rw [OrdMap.find?_set]
      split
      next heq => rw [heq, hsome]
      · rfl
    rw [hsame]
    exact h
  next hfree =>
    rw [if_pos rfl]
    have hsum : (transfers.active.set address (leases.count address)).sum (fun _ count => count) = transfers.total := by
      have hactive := h.active address
      by_cases hnone : leases.count address = 0
      · rw [if_pos hnone] at hactive
        rw [OrdMap.sum_set_of_none hactive, h.sum, hnone]
        rfl
      · rw [if_neg hnone] at hactive
        have hset := OrdMap.sum_set_of_some (v := leases.count address) (f := fun _ count => count) hactive
        rw [h.sum] at hset
        omega
    have hset := OrdMap.sum_set_of_some (v := leases.count address + 1) (f := fun _ count => count)
      (OrdMap.find?_set_self transfers.active address (leases.count address))
    rw [hsum] at hset
    refine ⟨fun other => ?_, ?_, ?_, fun other => ?_, ?_⟩
    · dsimp only
      rw [OrdMap.find?_set, OrdMap.find?_set]
      by_cases heq : other = address
      · subst heq
        rw [if_pos rfl, List.count_cons_self, if_neg (by omega)]
      · rw [if_neg heq, if_neg heq, List.count_cons_of_ne (Ne.symm heq), h.active]
    · dsimp only
      rw [h.total, List.length_cons]
    · dsimp only
      omega
    · have hother := h.each other
      by_cases heq : other = address
      · subst heq
        rw [List.count_cons_self]
        omega
      · rw [List.count_cons_of_ne (Ne.symm heq)]
        exact hother
    · rw [List.length_cons]
      rw [h.total] at hroom
      omega

/-- A lease that is out can be released, and then is out no more. -/
theorem release (h : transfers.Counts leases) {index : Nat} (hlease : leases[index]? = some address) :
    ∃ transfers', transfers.release address = some transfers' ∧ transfers'.Counts (leases.eraseIdx index) := by
  obtain ⟨hindex, rfl⟩ := List.getElem?_eq_some_iff.mp hlease
  have hmem : leases[index] ∈ leases := List.getElem_mem hindex
  have hcount : 0 < leases.count leases[index] := List.count_pos_iff.mpr hmem
  have hfind : transfers.active.find? leases[index] = some (leases.count leases[index]) := by
    rw [h.active, if_neg (by omega)]
  have htotal : transfers.total ≠ 0 := by
    rw [h.total]
    exact Nat.ne_of_gt (Nat.lt_of_le_of_lt (Nat.zero_le index) hindex)
  have hleft : ∀ other, (leases.eraseIdx index).count other =
      leases.count other - if other = leases[index] then 1 else 0 := by
    intro other
    have hperm := (List.getElem_cons_eraseIdx_perm hindex).count_eq other
    by_cases heq : other = leases[index]
    · rw [← heq, List.count_cons_self] at hperm
      rw [if_pos heq]
      omega
    · rw [List.count_cons_of_ne (Ne.symm heq)] at hperm
      rw [if_neg heq]
      omega
  unfold Transfers.release
  rw [hfind]
  dsimp only
  rw [if_neg (by omega)]
  refine ⟨_, rfl, fun other => ?_, ?_, ?_, fun other => ?_, ?_⟩
  · dsimp only
    rw [hleft]
    by_cases heq : other = leases[index]
    · rw [if_pos heq, heq]
      by_cases hlast : leases.count leases[index] - 1 = 0
      · rw [if_pos hlast, if_pos hlast, OrdMap.find?_erase, if_pos rfl]
      · rw [if_neg hlast, if_neg hlast, OrdMap.find?_set_self]
    · rw [if_neg heq, Nat.sub_zero, ← h.active]
      split
      · rw [OrdMap.find?_erase, if_neg heq]
      · rw [OrdMap.find?_set_of_ne _ _ heq]
  · dsimp only
    rw [h.total, List.length_eraseIdx_of_lt hindex]
  · dsimp only
    have hsum := h.sum
    split
    · have herase := OrdMap.sum_erase_of_some (f := fun _ count => count) hfind
      omega
    · have hset := OrdMap.sum_set_of_some (v := leases.count leases[index] - 1) (f := fun _ count => count) hfind
      omega
  · rw [hleft]
    exact Nat.le_trans (Nat.sub_le _ _) (h.each other)
  · rw [List.length_eraseIdx_of_lt hindex]
    exact Nat.le_trans (Nat.sub_le _ _) h.all

end Transfers.Counts

/-! ### Windows -/

/-- What admitted work has cost a meter in a window, or in one second of it. -/
def spent (log : List Admission) (meter : Meter) (address : Address) (start second : Int) : Nat :=
  ((log.filter fun a => decide (a.address = address ∧ a.start = start ∧
    (meter.perSecond = true → a.second = second))).map fun a => meter.cost a.work a.bytes).sum

def secondOf (start now : Int) : Int := (now - start).tdiv SECOND

/-- Two windows that no time falls in both of. -/
def Apart (start other : Int) : Prop := start + WINDOW ≤ other ∨ other + WINDOW ≤ start

section

variable {log : List Admission} {meter : Meter} {address : Address} {start second now now' : Int}

theorem spent_cons (a : Admission) : spent (a :: log) meter address start second =
    (if a.address = address ∧ a.start = start ∧ (meter.perSecond = true → a.second = second) then
      meter.cost a.work a.bytes else 0) + spent log meter address start second := by
  unfold spent
  by_cases hcounted : a.address = address ∧ a.start = start ∧ (meter.perSecond = true → a.second = second)
  · rw [List.filter_cons, if_pos (decide_eq_true hcounted), if_pos hcounted, List.map_cons, List.sum_cons]
  · rw [List.filter_cons, decide_eq_false hcounted, if_neg hcounted, Nat.zero_add]
    rfl

theorem spent_eq_zero (h : ∀ a ∈ log, a.address = address → a.start = start →
    ¬(meter.perSecond = true → a.second = second)) : spent log meter address start second = 0 := by
  induction log with
  | nil => rfl
  | cons a log ih =>
    rw [spent_cons, ih fun b hb => h b (List.mem_cons_of_mem _ hb), if_neg]
    rintro ⟨haddress, hstart, hsecond⟩
    exact h a List.mem_cons_self haddress hstart hsecond

theorem spent_second (hwindow : meter.perSecond = false) (other : Int) :
    spent log meter address start second = spent log meter address start other := by
  unfold spent
  rw [hwindow]
  simp

theorem secondOf_mono (hstart : start ≤ now) (hnow : now ≤ now') : secondOf start now ≤ secondOf start now' := by
  unfold secondOf
  rw [Int.tdiv_eq_ediv_of_nonneg (by omega), Int.tdiv_eq_ediv_of_nonneg (by omega)]
  exact Int.ediv_le_ediv (by decide) (by omega)

theorem secondOf_self (now : Int) : secondOf now now = 0 := by
  unfold secondOf
  rw [Int.sub_self]
  rfl

end

/-- **The invariant of the windows**: the counters of a window are what the log says was admitted
    in it, and every other window that was opened has passed. -/
structure WindowsSound (budget : IngressBudget) (opened : List (Address × Int)) (log : List Admission)
    (now : Int) : Prop where
  counts : ∀ address w, budget.peers.find? address = some w → ∀ meter : Meter,
    meter.read w = spent log meter address w.start w.second
  seconds : ∀ address w, budget.peers.find? address = some w → w.second ≤ secondOf w.start now ∧
    ∀ a ∈ log, a.address = address → a.start = w.start → a.second ≤ w.second
  current : ∀ address w, budget.peers.find? address = some w → (address, w.start) ∈ opened
  past : ∀ address start, (address, start) ∈ opened → start ≤ now ∧
    ((∃ w, budget.peers.find? address = some w ∧ w.start = start) ∨
      start + WINDOW ≤ now ∧ ∀ w, budget.peers.find? address = some w → start + WINDOW ≤ w.start)
  logged : ∀ a ∈ log, (a.address, a.start) ∈ opened ∧ a.start ≤ a.now ∧ a.now < a.start + WINDOW ∧
    a.second = secondOf a.start a.now
  within : ∀ meter address start second, spent log meter address start second ≤ meter.quota
  apart : ∀ address start other, (address, start) ∈ opened → (address, other) ∈ opened →
    start = other ∨ Apart start other
  size : budget.peers.size ≤ 4096

namespace WindowsSound

variable {budget : IngressBudget} {opened : List (Address × Int)} {log : List Admission} {now now' : Int}
  {address : Address} {w : Window}

theorem fresh (now : Int) : WindowsSound { lastCleanup := 0, peers := ∅ } [] [] now where
  counts address w h := by cases h
  seconds address w h := by cases h
  current address w h := by cases h
  past address start h := by cases h
  logged a h := by cases h
  within meter address start second := Nat.zero_le _
  apart address start other h := by cases h
  size := Nat.zero_le _

theorem withinQuotas (h : WindowsSound budget opened log now) (hw : budget.peers.find? address = some w) :
    w.WithinQuotas := by
  intro meter
  rw [h.counts address w hw]
  exact h.within meter address w.start w.second

theorem start_le (h : WindowsSound budget opened log now) (hw : budget.peers.find? address = some w) :
    w.start ≤ now := (h.past address w.start (h.current address w hw)).1

theorem later (h : WindowsSound budget opened log now) (hnow : now ≤ now') :
    WindowsSound budget opened log now' := by
  refine { h with seconds := ?_, past := ?_ }
  · intro address w hw
    obtain ⟨hsecond, hlog⟩ := h.seconds address w hw
    exact ⟨hsecond.trans (secondOf_mono (h.start_le hw) hnow), hlog⟩
  · intro address start hopened
    obtain ⟨hstart, hcurrent | ⟨hpassed, hnext⟩⟩ := h.past address start hopened
    · exact ⟨hstart.trans hnow, .inl hcurrent⟩
    · exact ⟨hstart.trans hnow, .inr ⟨hpassed.trans hnow, hnext⟩⟩

theorem cleanup (h : WindowsSound budget opened log now) : WindowsSound (budget.cleanup now) opened log now := by
  unfold IngressBudget.cleanup
  split
  swap
  · exact h
  have hfilter : ∀ address w, (budget.peers.filter fun _ w => !decide (now - w.start ≥ WINDOW)).find? address = some w ↔
      budget.peers.find? address = some w ∧ ¬now - w.start ≥ WINDOW := by
    intro address w
    rw [OrdMap.find?_filter, Bool.not_eq_true', decide_eq_false_iff_not]
  refine ⟨?_, ?_, ?_, ?_, h.logged, h.within, h.apart, (OrdMap.size_filter_le _ _).trans h.size⟩
  · exact fun address w hw => h.counts address w ((hfilter address w).mp hw).1
  · exact fun address w hw => h.seconds address w ((hfilter address w).mp hw).1
  · exact fun address w hw => h.current address w ((hfilter address w).mp hw).1
  · intro address start hopened
    obtain ⟨hstart, ⟨w, hw, rfl⟩ | ⟨hpassed, hnext⟩⟩ := h.past address start hopened
    · by_cases hexpired : now - w.start ≥ WINDOW
      · refine ⟨hstart, .inr ⟨by omega, fun w' hw' => ?_⟩⟩
        obtain ⟨hsome, hlive⟩ := (hfilter address w').mp hw'
        rw [hw] at hsome
        obtain rfl := Option.some.inj hsome
        exact absurd hexpired hlive
      · exact ⟨hstart, .inl ⟨w, (hfilter address w).mpr ⟨hw, hexpired⟩, rfl⟩⟩
    · exact ⟨hstart, .inr ⟨hpassed, fun w hw => hnext w ((hfilter address w).mp hw).1⟩⟩

/-- A window is opened where there is none or the one there has passed. -/
theorem opens (h : WindowsSound budget opened log now)
    (hfree : ∀ w, budget.peers.find? address = some w → now - w.start ≥ WINDOW)
    (hroom : budget.peers.find? address = none → budget.peers.size < 4096) :
    WindowsSound { budget with peers := budget.peers.set address { start := now } }
      ((address, now) :: opened) log now := by
  have hpassed : ∀ start, (address, start) ∈ opened → start + WINDOW ≤ now := by
    intro start hopened
    obtain ⟨-, ⟨w, hw, rfl⟩ | ⟨hpassed, -⟩⟩ := h.past address start hopened
    · have hexpired := hfree w hw
      omega
    · exact hpassed
  have hlog : ∀ a ∈ log, a.address = address → a.start = now → False := by
    intro a ha haddress hstart
    have hold := hpassed a.start (haddress ▸ (h.logged a ha).1)
    unfold WINDOW SECOND at hold
    omega
  constructor
  · refine OrdMap.forall_find?_set (fun meter => ?_) h.counts
    rw [Window.read_opened, spent_eq_zero fun a ha haddress hstart => (hlog a ha haddress hstart).elim]
  · refine OrdMap.forall_find?_set ⟨(secondOf_self now).ge, fun a ha haddress hstart => ?_⟩ h.seconds
    exact (hlog a ha haddress hstart).elim
  · exact OrdMap.forall_find?_set List.mem_cons_self fun other w hw =>
      List.mem_cons_of_mem _ (h.current other w hw)
  · intro other start hopened
    dsimp only
    rw [OrdMap.find?_set]
    rcases List.mem_cons.mp hopened with heq | hopened
    · obtain ⟨rfl, rfl⟩ := Prod.mk.inj heq
      rw [if_pos rfl]
      exact ⟨le_rfl, .inl ⟨_, rfl, rfl⟩⟩
    · by_cases heq : other = address
      · rw [if_pos heq]
        have hold := hpassed start (heq ▸ hopened)
        refine ⟨(h.past other start hopened).1, .inr ⟨hold, fun w hw => ?_⟩⟩
        obtain rfl := Option.some.inj hw
        exact hold
      · rw [if_neg heq]
        exact h.past other start hopened
  · intro a ha
    obtain ⟨hopened, hrest⟩ := h.logged a ha
    exact ⟨List.mem_cons_of_mem _ hopened, hrest⟩
  · exact h.within
  · intro other start start' hopened hopened'
    rcases List.mem_cons.mp hopened with heq | hold
    · obtain ⟨rfl, rfl⟩ := Prod.mk.inj heq
      rcases List.mem_cons.mp hopened' with heq' | hold'
      · exact .inl (Prod.mk.inj heq').2.symm
      · exact .inr (.inr (hpassed start' hold'))
    · rcases List.mem_cons.mp hopened' with heq' | hold'
      · obtain ⟨rfl, rfl⟩ := Prod.mk.inj heq'
        exact .inr (.inl (hpassed start hold))
      · exact h.apart other start start' hold hold'
  · dsimp only
    cases hfind : budget.peers.find? address with
    | none =>
      rw [OrdMap.size_set_of_none hfind]
      exact hroom hfind
    | some w =>
      rw [OrdMap.size_set_of_some hfind]
      exact h.size

/-- The window of an address changes its counters and its second only. -/
theorem recount {log' : List Admission} {w' : Window} (h : WindowsSound budget opened log now)
    (hw : budget.peers.find? address = some w) (hstart : w'.start = w.start)
    (hcounts : ∀ meter : Meter, meter.read w' = spent log' meter address w.start w'.second)
    (hsecond : w'.second ≤ secondOf w.start now ∧
      ∀ a ∈ log', a.address = address → a.start = w.start → a.second ≤ w'.second)
    (hothers : ∀ other, other ≠ address → (∀ meter start second,
      spent log' meter other start second = spent log meter other start second) ∧
      ∀ a ∈ log', a.address = other → a ∈ log)
    (hlogged : ∀ a ∈ log', (a.address, a.start) ∈ opened ∧ a.start ≤ a.now ∧ a.now < a.start + WINDOW ∧
      a.second = secondOf a.start a.now)
    (hwithin : ∀ meter address start second, spent log' meter address start second ≤ meter.quota) :
    WindowsSound { budget with peers := budget.peers.set address w' } opened log' now := by
  refine ⟨?_, ?_, ?_, ?_, hlogged, hwithin, h.apart, ?_⟩
  · refine OrdMap.forall_find?_set_of_ne (fun meter => ?_) fun other w₁ hne hw₁ meter => ?_
    · rw [hstart]
      exact hcounts meter
    · rw [(hothers other hne).1]
      exact h.counts other w₁ hw₁ meter
  · refine OrdMap.forall_find?_set_of_ne ?_ fun other w₁ hne hw₁ => ?_
    · rw [hstart]
      exact hsecond
    · obtain ⟨hle, hlog⟩ := h.seconds other w₁ hw₁
      exact ⟨hle, fun a ha haddress => hlog a ((hothers other hne).2 a ha haddress) haddress⟩
  · refine OrdMap.forall_find?_set ?_ h.current
    rw [hstart]
    exact h.current address w hw
  · intro other start hopened
    dsimp only
    rw [OrdMap.find?_set]
    by_cases heq : other = address
    · subst heq
      rw [if_pos rfl]
      obtain ⟨hle, ⟨w₁, hw₁, hstart₁⟩ | ⟨hpassed, hnext⟩⟩ := h.past other start hopened
      · rw [hw] at hw₁
        obtain rfl := Option.some.inj hw₁
        exact ⟨hle, .inl ⟨w', rfl, hstart.trans hstart₁⟩⟩
      · refine ⟨hle, .inr ⟨hpassed, fun w₁ hw₁ => ?_⟩⟩
        obtain rfl := Option.some.inj hw₁
        rw [hstart]
        exact hnext w hw
    · rw [if_neg heq]
      exact h.past other start hopened
  · dsimp only
    rw [OrdMap.size_set_of_some hw]
    exact h.size

theorem atSecond (h : WindowsSound budget opened log now) (hw : budget.peers.find? address = some w) :
    WindowsSound { budget with peers := budget.peers.set address (w.atSecond now) } opened log now := by
  obtain ⟨hsecond, hlog⟩ := h.seconds address w hw
  refine h.recount hw (Window.start_atSecond w now) (fun meter => ?_) ?_ (fun other _ => ?_) h.logged h.within
  · rw [Window.read_atSecond, Window.second_atSecond]
    by_cases hreset : meter.perSecond = true ∧ (now - w.start).tdiv SECOND ≠ w.second
    · rw [if_pos hreset, spent_eq_zero]
      intro a ha haddress hstart hsame
      have hle := hlog a ha haddress hstart
      have heq : w.second = secondOf w.start now := le_antisymm hsecond ((hsame hreset.1).symm.le.trans hle)
      exact hreset.2 heq.symm
    · rw [if_neg hreset, h.counts address w hw]
      by_cases hper : meter.perSecond = true
      · rw [not_and, not_not] at hreset
        rw [hreset hper]
      · exact spent_second (eq_false_of_ne_true hper) _
  · rw [Window.second_atSecond]
    exact ⟨le_rfl, fun a ha haddress hstart => (hlog a ha haddress hstart).trans hsecond⟩
  · exact ⟨fun _ _ _ => rfl, fun _ ha _ => ha⟩

/-- Work is charged to the window under way. -/
theorem charge (h : WindowsSound budget opened log now) (hw : budget.peers.find? address = some w)
    (hlive : now < w.start + WINDOW) (hnow : w.second = secondOf w.start now) (work : Work) (bytes : UInt64) :
    WindowsSound { budget with peers := budget.peers.set address (w.charge work bytes).2 } opened
      (if (w.charge work bytes).1 = true then
        { address, start := w.start, second := w.second, work, bytes, now } :: log else log) now := by
  have hspec := Window.charge_spec (h.withinQuotas hw) work bytes
  unfold Window.Charged at hspec
  by_cases hadmitted : (w.charge work bytes).1 = true
  · rw [if_pos hadmitted] at hspec
    rw [if_pos hadmitted]
    obtain ⟨hstart, hsecond, hmeters⟩ := hspec
    refine h.recount hw hstart (fun meter => ?_) ?_ (fun other hne => ?_) (fun a ha => ?_) fun meter other start second => ?_
    · rw [(hmeters meter).1, h.counts address w hw, spent_cons, if_pos ⟨rfl, rfl, fun _ => hsecond.symm⟩, hsecond,
        Nat.add_comm]
    · rw [hsecond]
      refine ⟨hnow.le, fun a ha haddress hstart => ?_⟩
      rcases List.mem_cons.mp ha with rfl | ha
      · exact le_rfl
      · exact (h.seconds address w hw).2 a ha haddress hstart
    · refine ⟨fun meter start second => ?_, fun a ha haddress => ?_⟩
      · rw [spent_cons, if_neg fun h => hne h.1.symm, Nat.zero_add]
      · rcases List.mem_cons.mp ha with rfl | ha
        · exact absurd haddress.symm hne
        · exact ha
    · rcases List.mem_cons.mp ha with rfl | ha
      · exact ⟨h.current address w hw, h.start_le hw, hlive, hnow⟩
      · exact h.logged a ha
    · rw [spent_cons]
      split
      next hcounted =>
        obtain ⟨rfl, rfl, hsame⟩ := hcounted
        have hspent : spent log meter address w.start second = spent log meter address w.start w.second := by
          by_cases hper : meter.perSecond = true
          · have hsecond' : w.second = second := hsame hper
            rw [hsecond']
          · exact spent_second (eq_false_of_ne_true hper) _
        obtain ⟨hread, hquota⟩ := hmeters meter
        rw [hread, h.counts address w hw] at hquota
        rw [hspent, Nat.add_comm]
        exact hquota
      · rw [Nat.zero_add]
        exact h.within meter other start second
  · rw [if_neg hadmitted] at hspec
    rw [if_neg hadmitted, hspec]
    exact h.recount hw rfl (h.counts address w hw) (h.seconds address w hw)
      (fun other _ => ⟨fun _ _ _ => rfl, fun _ ha _ => ha⟩) h.logged h.within

theorem admitTo (h : WindowsSound { budget with peers := budget.peers.set address w } opened log now)
    (hlive : now < w.start + WINDOW) (work : Work) (bytes : UInt64) :
    WindowsSound { budget with peers := budget.peers.set address ((w.atSecond now).charge work bytes).2 } opened
      (if ((w.atSecond now).charge work bytes).1 = true then
        { address, start := (w.atSecond now).start, second := (w.atSecond now).second, work, bytes, now } :: log
        else log) now := by
  have hset : ∀ first last : Window, (budget.peers.set address first).set address last = budget.peers.set address last := by
    intro first last
    refine OrdMap.ext_find? fun other => ?_
    rw [OrdMap.find?_set, OrdMap.find?_set, OrdMap.find?_set]
    split
    · rfl
    · rfl
  have hsecond := h.atSecond (OrdMap.find?_set_self _ _ _)
  dsimp only at hsecond
  rw [hset] at hsecond
  have hcharge := hsecond.charge (OrdMap.find?_set_self _ _ _) (by rwa [Window.start_atSecond])
    (by rw [Window.second_atSecond, Window.start_atSecond]; rfl) work bytes
  dsimp only at hcharge
  rw [hset] at hcharge
  exact hcharge

end WindowsSound

/-! ### Runs -/

theorem find?_cleanup {budget : IngressBudget} {address : Address} {w : Window} {now : Int} :
    ((budget.cleanup now).peers.find? address = some w → budget.peers.find? address = some w) ∧
      (budget.peers.find? address = some w → ¬now - w.start ≥ WINDOW →
        (budget.cleanup now).peers.find? address = some w) := by
  unfold IngressBudget.cleanup
  split
  · dsimp only
    rw [OrdMap.find?_filter, Bool.not_eq_true', decide_eq_false_iff_not]
    exact ⟨And.left, And.intro⟩
  · exact ⟨id, fun hfind _ => hfind⟩

theorem window_spec (budget : IngressBudget) (address : Address) (now : Int) :
    (budget.window address now = none ∧ budget.peers.find? address = none) ∨
    (∃ w, budget.window address now = some w ∧ budget.peers.find? address = some w ∧ ¬now - w.start ≥ WINDOW) ∨
    (budget.window address now = some { start := now } ∧
      (∀ w, budget.peers.find? address = some w → now - w.start ≥ WINDOW) ∧
      (budget.peers.find? address = none → budget.peers.size < 4096)) := by
  unfold IngressBudget.window
  cases hfind : budget.peers.find? address with
  | none =>
    dsimp only
    by_cases hfull : budget.peers.size ≥ 4096
    · rw [if_pos hfull]
      exact .inl ⟨rfl, rfl⟩
    · rw [if_neg hfull]
      refine .inr (.inr ⟨rfl, fun w hw => ?_, fun _ => Nat.lt_of_not_le hfull⟩)
      cases hw
  | some w =>
    dsimp only
    by_cases hexpired : now - w.start ≥ WINDOW
    · rw [if_pos hexpired]
      refine .inr (.inr ⟨rfl, fun w' hw' => ?_, fun hnone => by cases hnone⟩)
      obtain rfl := Option.some.inj hw'
      exact hexpired
    · rw [if_neg hexpired]
      exact .inr (.inl ⟨w, rfl, rfl, hexpired⟩)

theorem charge_start {w : Window} (h : w.WithinQuotas) (work : Work) (bytes : UInt64) :
    (w.charge work bytes).2.start = w.start ∧ (w.charge work bytes).2.second = w.second := by
  have hspec := Window.charge_spec h work bytes
  unfold Window.Charged at hspec
  split at hspec
  · exact ⟨hspec.1, hspec.2.1⟩
  · rw [hspec]
    exact ⟨rfl, rfl⟩

namespace IngressRun

structure Sound (run : IngressRun) : Prop where
  transfers : run.transfers.Counts run.leases
  windows : WindowsSound run.budget run.opened run.log run.now

theorem sound_fresh (now : Int) : (fresh now).Sound where
  transfers :=
    { active := fun _ => rfl
      total := rfl
      sum := rfl
      each := fun _ => Nat.zero_le _
      all := Nat.zero_le _ }
  windows := WindowsSound.fresh now

theorem admit_of_window {run : IngressRun} {address : Address} {now : Int} {w : Window} {work : Work} {bytes : UInt64}
    (hwindow : (run.budget.cleanup now).window address now = some w) (hw : w.WithinQuotas) :
    run.admitWork address work bytes now =
      { run with
        budget :=
          { run.budget.cleanup now with
            peers := (run.budget.cleanup now).peers.set address ((w.atSecond now).charge work bytes).2 }
        now := now
        opened := if (run.budget.peers.find? address).any (fun old => decide (old.start = w.start)) = true then
            run.opened else (address, w.start) :: run.opened
        log := if ((w.atSecond now).charge work bytes).1 = true then
            { address, start := (w.atSecond now).start, second := (w.atSecond now).second, work, bytes, now } :: run.log
          else run.log } := by
  obtain ⟨hstart, hsecond⟩ := charge_start (hw.atSecond now) work bytes
  unfold IngressRun.admitWork IngressBudget.admitWork
  dsimp only
  rw [hwindow]
  dsimp only
  rw [OrdMap.find?_set_self]
  dsimp only
  rw [hstart, hsecond, Window.start_atSecond]

/-- `Admit` keeps the windows sound. -/
theorem windowsSound_admit {run : IngressRun} (h : run.Sound) {now : Int} (hnow : run.now ≤ now)
    (address : Address) (work : Work) (bytes : UInt64) :
    WindowsSound (run.admitWork address work bytes now).budget (run.admitWork address work bytes now).opened
      (run.admitWork address work bytes now).log now := by
  have hclean := (h.windows.later hnow).cleanup
  rcases window_spec (run.budget.cleanup now) address now with
    ⟨hwindow, hnone⟩ | ⟨w, hwindow, hfind, hlive⟩ | ⟨hwindow, hexpired, hroom⟩
  · unfold IngressRun.admitWork IngressBudget.admitWork
    dsimp only
    rw [hwindow]
    dsimp only
    rw [hnone]
    exact hclean
  · -- the window of the address is live, and is in the table already
    rw [admit_of_window hwindow (hclean.withinQuotas hfind), find?_cleanup.1 hfind, Option.any_some,
      decide_eq_true rfl, if_pos rfl]
    have hsame : (run.budget.cleanup now).peers.set address w = (run.budget.cleanup now).peers := by
      refine OrdMap.ext_find? fun other => ?_
      rw [OrdMap.find?_set]
      split
      next heq => rw [heq, hfind]
      · rfl
    refine WindowsSound.admitTo ?_ (by omega) work bytes
    rw [hsame]
    exact hclean
  · -- a new window, which no older one of the address has begun with
    have hfresh : ((run.budget.peers.find? address).any fun old => decide (old.start = now)) = false := by
      cases hold : run.budget.peers.find? address with
      | none => rfl
      | some old =>
        refine decide_eq_false fun hstart => ?_
        have hlive : ¬now - old.start ≥ WINDOW := by
          rw [hstart, Int.sub_self]
          decide
        exact hlive (hexpired old (find?_cleanup.2 hold hlive))
    rw [admit_of_window hwindow (Window.withinQuotas_opened now)]
    dsimp only
    rw [hfresh, if_neg Bool.false_ne_true]
    refine WindowsSound.admitTo (hclean.opens hexpired hroom) ?_ work bytes
    unfold WINDOW SECOND
    dsimp only
    omega

theorem admit_rest (run : IngressRun) (address : Address) (work : Work) (bytes : UInt64) (now : Int) :
    (run.admitWork address work bytes now).transfers = run.transfers ∧
      (run.admitWork address work bytes now).leases = run.leases ∧ (run.admitWork address work bytes now).now = now := by
  unfold IngressRun.admitWork
  dsimp only
  split
  · exact ⟨rfl, rfl, rfl⟩
  · exact ⟨rfl, rfl, rfl⟩

/-- The step: the counters of every window are those of the log. -/
theorem Sound.step {run : IngressRun} (h : run.Sound) {call : IngressCall} {next : IngressRun}
    (hstep : run.step call = some next) : next.Sound := by
  cases call with
  | acquire address =>
    obtain rfl := Option.some.inj hstep
    exact ⟨h.transfers.acquire address, h.windows⟩
  | release index =>
    cases hlease : run.leases[index]? with
    | none =>
      unfold IngressRun.step at hstep
      dsimp only at hstep
      rw [hlease] at hstep
      cases hstep
    | some address =>
      obtain ⟨transfers, hrelease, hcounts⟩ := h.transfers.release hlease
      unfold IngressRun.step at hstep
      dsimp only at hstep
      rw [hlease, Option.bind_some, hrelease] at hstep
      obtain rfl := Option.some.inj hstep
      exact ⟨hcounts, h.windows⟩
  | admitWork address work bytes now =>
    unfold IngressRun.step at hstep
    dsimp only at hstep
    split at hstep
    next hnow =>
      obtain rfl := Option.some.inj hstep
      obtain ⟨htransfers, hleases, htime⟩ := run.admit_rest address work bytes now
      constructor
      · rw [htransfers, hleases]
        exact h.transfers
      · rw [htime]
        exact windowsSound_admit h hnow address work bytes
    · cases hstep

theorem Sound.run {run : IngressRun} (h : run.Sound) {calls : List IngressCall} {last : IngressRun}
    (hrun : run.run calls = some last) : last.Sound := by
  induction calls generalizing run with
  | nil =>
    obtain rfl := Option.some.inj hrun
    exact h
  | cons call calls ih =>
    obtain ⟨next, hstep, hrest⟩ := Option.bind_eq_some_iff.mp hrun
    exact ih (h.step hstep) hrest

theorem Sound.withinQuotas {run : IngressRun} (h : run.Sound) {now : Int} (hnow : run.now ≤ now) {address : Address}
    {w : Window} (hwindow : (run.budget.cleanup now).window address now = some w) :
    (w.atSecond now).WithinQuotas := by
  have hclean := (h.windows.later hnow).cleanup
  rcases window_spec (run.budget.cleanup now) address now with ⟨hnone, -⟩ | ⟨w', hsome, hfind, -⟩ | ⟨hsome, -, -⟩
  · rw [hnone] at hwindow
    cases hwindow
  · rw [hsome] at hwindow
    obtain rfl := Option.some.inj hwindow
    exact (hclean.withinQuotas hfind).atSecond now
  · rw [hsome] at hwindow
    obtain rfl := Option.some.inj hwindow
    exact (Window.withinQuotas_opened now).atSecond now

theorem Sound.start_eq_iff {run : IngressRun} (h : run.Sound) {a : Admission} (ha : a ∈ run.log) {start : Int}
    (hopened : (a.address, start) ∈ run.opened) : a.start = start ↔ start ≤ a.now ∧ a.now < start + WINDOW := by
  obtain ⟨hcharged, hfrom, huntil, -⟩ := h.windows.logged a ha
  constructor
  · rintro rfl
    exact ⟨hfrom, huntil⟩
  · rintro ⟨hfrom', huntil'⟩
    rcases h.windows.apart a.address a.start start hcharged hopened with heq | hbefore | hafter
    · exact heq
    · omega
    · omega

end IngressRun

/-- **The ingress budget.**  After any calls of `AcquireStorageTransfer` and `Admit` and any ends of
    leases, the transfers that are out and the work that was admitted are within the quotas. -/
theorem ingress_budget {now : Int} {calls : List IngressCall} {last : IngressRun}
    (hrun : (IngressRun.fresh now).run calls = some last) :
    -- the counters are those of the leases that are out, and none of them goes below zero
    (∀ address, last.leases.count address ≤ 2 ∧ last.transfers.active.find? address =
      if last.leases.count address = 0 then none else some (last.leases.count address)) ∧
    last.leases.length ≤ 8 ∧ last.transfers.total = last.leases.length ∧
    last.transfers.total = last.transfers.active.sum (fun _ count => count) ∧
    (∀ (index : Nat) address, last.leases[index]? = some address → (last.transfers.release address).isSome = true) ∧
    -- what was admitted in a window and in each second of it is within the quotas
    (∀ meter address start second, spent last.log meter address start second ≤ meter.quota) ∧
    (∀ a ∈ last.log, (a.address, a.start) ∈ last.opened ∧ a.second = secondOf a.start a.now ∧
      ∀ start, (a.address, start) ∈ last.opened → (a.start = start ↔ start ≤ a.now ∧ a.now < start + WINDOW)) ∧
    -- no subtraction from a quota wraps
    (∀ address now w, last.now ≤ now → (last.budget.cleanup now).window address now = some w →
      (w.atSecond now).WithinQuotas) ∧
    -- two windows of an address do not overlap, and the table is bounded
    (∀ address start other, (address, start) ∈ last.opened → (address, other) ∈ last.opened →
      start = other ∨ Apart start other) ∧
    last.budget.peers.size ≤ 4096 := by
  have h := (IngressRun.sound_fresh now).run hrun
  refine ⟨fun address => ⟨h.transfers.each address, h.transfers.active address⟩, h.transfers.all, h.transfers.total,
    h.transfers.sum.symm, fun index address hlease => ?_, h.windows.within, fun a ha => ?_, ?_, h.windows.apart,
    h.windows.size⟩
  · obtain ⟨transfers, hrelease, -⟩ := h.transfers.release hlease
    rw [hrelease]
    rfl
  · exact ⟨(h.windows.logged a ha).1, (h.windows.logged a ha).2.2.2, fun start hopened => h.start_eq_iff ha hopened⟩
  · exact fun address now w hnow hwindow => h.withinQuotas hnow hwindow

/-- Two addresses, with a release out of order and a window that is opened again. -/
def sampleIngress : List IngressCall :=
  [.acquire [49], .acquire [50], .acquire [49], .acquire [49], .release 1, .admitWork [49] .operation 100 5,
    .admitWork [49] .storagePut 64 1000000005, .admitWork [49] .connection 0 60000000005]

theorem ingress_budget_sample : ∃ last, (IngressRun.fresh 0).run sampleIngress = some last ∧
    last.leases = [[49], [49]] ∧ last.transfers.total = 2 ∧ last.opened = [([49], 60000000005), ([49], 5)] ∧
    spent last.log .operations [49] 5 0 ≤ 120 := by
  refine ⟨_, rfl, rfl, rfl, rfl, ?_⟩
  exact (@ingress_budget 0 sampleIngress _ rfl).2.2.2.2.2.1 .operations [49] 5 0

end Cybou.P2p
