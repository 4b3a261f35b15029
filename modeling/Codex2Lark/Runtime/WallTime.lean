import Codex2Lark.Lib.Carry
import Codex2Lark.Runtime.Turn

/-!
`_ActiveWallTime`: the milliseconds charged for the time between the readings of a clock that
may go back. What does not fill a millisecond is carried to the next charge, so as long as
nothing is refused the ledger holds the whole milliseconds of the time that has passed.
-/

namespace Codex2Lark

open Lib

/-- `_ActiveWallTime`; its ledger is the one of the harness. -/
structure ActiveWallTime where
  ledger : BudgetLedger
  lastNs : Int
  remainderNs : Int
deriving DecidableEq, Repr

/-- What the loop of the harness asks of the ledger: a charge of the wall time at a reading of
the clock, or `_consume_if_limited` for another kind. -/
inductive LedgerCall where
  | wallTime (nowNs : Int)
  | other (kind : BudgetKind) (hother : kind ≠ .wallTimeMs) (amount : Int)
deriving DecidableEq, Repr

/-- The reading of a charge. -/
def LedgerCall.reading? : LedgerCall → Option Int
  | .wallTime nowNs => some nowNs
  | .other .. => none

/-- The differences of consecutive readings; where the clock goes back there is none. -/
def elapsedNs (lastNs : Int) : List Int → List Int
  | [] => []
  | nowNs :: rest => max 0 (nowNs - lastNs) :: elapsedNs nowNs rest

namespace ActiveWallTime

/-- `__init__`, with its reading of the clock. -/
def start (ledger : BudgetLedger) (nowNs : Int) : ActiveWallTime :=
  { ledger, lastNs := nowNs, remainderNs := 0 }

/-- `charge` at a reading. The clock is set before the ledger can refuse. -/
def charge (t : ActiveWallTime) (nowNs : Int) : ActiveWallTime × Except PyError Unit :=
  let total := t.remainderNs + max 0 (nowNs - t.lastNs)
  let elapsedMs := total / 1000000
  let t := { t with lastNs := nowNs, remainderNs := total % 1000000 }
  if elapsedMs ≠ 0 ∧ t.ledger.limits.contains .wallTimeMs then
    match t.ledger.consume .wallTimeMs elapsedMs with
    | .ok ledger => ({ t with ledger }, .ok ())
    | .error _ => (t, .error (.wallTimeBudgetExceeded "wall_time_ms budget exceeded"))
  else (t, .ok ())

def call (t : ActiveWallTime) : LedgerCall → ActiveWallTime × Except PyError Unit
  | .wallTime nowNs => t.charge nowNs
  | .other kind _ amount =>
      match t.ledger.consumeIfLimited kind amount with
      | .ok ledger => ({ t with ledger }, .ok ())
      | .error e => (t, .error e)

/-- The state after the calls, whichever of them were refused. -/
def run (t : ActiveWallTime) : List LedgerCall → ActiveWallTime
  | [] => t
  | call :: rest => (t.call call).1.run rest

/-- No charge of the wall time is refused. -/
def accepts (t : ActiveWallTime) : List LedgerCall → Bool
  | [] => true
  | call :: rest =>
      (call.reading?.isNone || (t.call call).2.isOk) && (t.call call).1.accepts rest

/-- The milliseconds on the ledger and the nanoseconds carried. -/
def account (t : ActiveWallTime) : Carry := ⟨t.ledger.consumedOf .wallTimeMs, t.remainderNs⟩

end ActiveWallTime

/-- The harness keeps the three fields among its locals. -/
def Locals.wallTime (l : Locals) : ActiveWallTime := ⟨l.ledger, l.lastNs, l.remainderNs⟩

/-- The charge of the loop is this one; a refusal leaves the loop. -/
theorem AgentHarness.charge_eq (l : Locals) (nowNs : Int) :
    AgentHarness.charge l nowNs = (l.wallTime.charge nowNs).2.map fun _ =>
      let t := (l.wallTime.charge nowNs).1
      { l with ledger := t.ledger, lastNs := t.lastNs, remainderNs := t.remainderNs } := by
  unfold AgentHarness.charge ActiveWallTime.charge Locals.wallTime
  dsimp only
  split
  · generalize l.ledger.consume .wallTimeMs _ = answer
    cases answer with
    | error e => rfl
    | ok ledger => rfl
  · rfl

namespace ActiveWallTime

/-! ### One call -/

variable {t : ActiveWallTime} {limit : Nat}

/-- The ledger limits the wall time and holds no reservation, as the one of a harness does. -/
structure Limited (limit : Nat) (t : ActiveWallTime) : Prop where
  limit : t.ledger.limits.get? .wallTimeMs = some limit
  reserved : t.ledger.reserved = []

theorem Limited.contains (hlimited : t.Limited limit) :
    t.ledger.limits.contains .wallTimeMs = true :=
  (Dict.contains_iff_get? _ _).mpr ⟨limit, hlimited.limit⟩

theorem Limited.available (hlimited : t.Limited limit) :
    t.ledger.available .wallTimeMs = limit - t.ledger.consumedOf .wallTimeMs := by
  unfold BudgetLedger.available BudgetLedger.reservedOf
  rw [hlimited.reserved, Dict.getD, hlimited.limit]
  simp [Dict.getD, Dict.get?]

/-- The three ways a charge can go. -/
theorem charge_cases (hlimited : t.Limited limit) (nowNs : Int) :
    let amount := max 0 (nowNs - t.lastNs)
    let elapsedMs := (t.remainderNs + amount) / 1000000
    let after := (t.charge nowNs).1
    after.Limited limit ∧ after.lastNs = nowNs ∧
      after.remainderNs = (t.remainderNs + amount) % 1000000 ∧
      ((t.charge nowNs).2.isOk = true ∧
          after.ledger.consumedOf .wallTimeMs = t.ledger.consumedOf .wallTimeMs + elapsedMs ∧
          (elapsedMs = 0 ∨
            0 ≤ elapsedMs ∧ t.ledger.consumedOf .wallTimeMs + elapsedMs ≤ limit) ∨
        (t.charge nowNs).2.isOk = false ∧ after.ledger = t.ledger) := by
  unfold charge
  dsimp only
  by_cases hms : (t.remainderNs + max 0 (nowNs - t.lastNs)) / 1000000 = 0
  · rw [if_neg fun hboth => hboth.1 hms, hms, add_zero]
    exact ⟨⟨hlimited.limit, hlimited.reserved⟩, rfl, rfl, Or.inl ⟨rfl, rfl, Or.inl rfl⟩⟩
  · rw [if_pos ⟨hms, hlimited.contains⟩]
    split
    · rename_i ledger hledger
      obtain ⟨hnonneg, hfits, hlimits, hreserved, hconsumed, _⟩ :=
        BudgetLedger.consume_ok hledger
      rw [hlimited.available] at hfits
      refine ⟨⟨hlimits ▸ hlimited.limit, hreserved ▸ hlimited.reserved⟩, rfl, rfl, Or.inl ?_⟩
      exact ⟨rfl, hconsumed, Or.inr ⟨hnonneg, by omega⟩⟩
    · exact ⟨⟨hlimited.limit, hlimited.reserved⟩, rfl, rfl, Or.inr ⟨rfl, rfl⟩⟩

/-- A call for another kind leaves the wall time alone. -/
theorem call_other (hlimited : t.Limited limit) {kind : BudgetKind}
    (hother : kind ≠ .wallTimeMs) (amount : Int) :
    let after := (t.call (.other kind hother amount)).1
    after.Limited limit ∧ after.lastNs = t.lastNs ∧ after.account = t.account := by
  unfold call
  dsimp only
  split
  · rename_i ledger hledger
    obtain ⟨hlimits, hreserved, hsame, _⟩ := BudgetLedger.consumeIfLimited_ok hledger
    refine ⟨⟨hlimits ▸ hlimited.limit, hreserved ▸ hlimited.reserved⟩, rfl, ?_⟩
    unfold account
    rw [hsame _ hother.symm]
  · exact ⟨hlimited, rfl, rfl⟩

theorem call_limited (hlimited : t.Limited limit) (call : LedgerCall) :
    (t.call call).1.Limited limit := by
  cases call with
  | wallTime nowNs => exact (charge_cases hlimited nowNs).1
  | other kind hother amount => exact (call_other hlimited hother amount).1

/-- An accepted charge draws the whole milliseconds of the account. -/
theorem charge_account (hlimited : t.Limited limit) {nowNs : Int}
    (hok : (t.charge nowNs).2.isOk = true) :
    (t.charge nowNs).1.account = t.account.draw 1000000 (max 0 (nowNs - t.lastNs)) := by
  obtain ⟨_, _, hrest, ⟨_, hconsumed, _⟩ | ⟨hrefused, _⟩⟩ := charge_cases hlimited nowNs
  · unfold account Carry.draw
    rw [hconsumed, hrest]
  · rw [hok] at hrefused
    cases hrefused

/-- A call leaves the milliseconds as they are, or raises them to at most the limit. -/
theorem call_consumed (hlimited : t.Limited limit) (call : LedgerCall) :
    (t.call call).1.ledger.consumedOf .wallTimeMs = t.ledger.consumedOf .wallTimeMs ∨
      t.ledger.consumedOf .wallTimeMs ≤ (t.call call).1.ledger.consumedOf .wallTimeMs ∧
        (t.call call).1.ledger.consumedOf .wallTimeMs ≤ limit := by
  cases call with
  | wallTime nowNs =>
      change (t.charge nowNs).1.ledger.consumedOf .wallTimeMs = _ ∨
        _ ≤ (t.charge nowNs).1.ledger.consumedOf .wallTimeMs ∧
          (t.charge nowNs).1.ledger.consumedOf .wallTimeMs ≤ _
      obtain ⟨_, _, _, ⟨_, hconsumed, hms⟩ | ⟨_, hsame⟩⟩ := charge_cases hlimited nowNs
      · omega
      · rw [hsame]
        exact Or.inl rfl
  | other kind hother amount =>
      exact Or.inl (congrArg Carry.drawn (call_other hlimited hother amount).2.2)

/-! ### All calls -/

/-- Without a refusal the account draws every difference of the readings. -/
theorem run_account (hlimited : t.Limited limit) {calls : List LedgerCall}
    (haccepts : t.accepts calls = true) :
    (t.run calls).account =
      (elapsedNs t.lastNs (calls.filterMap LedgerCall.reading?)).foldl
        (Carry.draw 1000000) t.account := by
  induction calls generalizing t with
  | nil => rfl
  | cons call rest ih =>
      obtain ⟨hcall, hrest⟩ := Bool.and_eq_true_iff.mp haccepts
      have hafter := ih (call_limited hlimited call) hrest
      unfold run
      rw [hafter]
      cases call with
      | wallTime nowNs =>
          have hclock := (charge_cases hlimited nowNs).2.1
          change (elapsedNs (t.charge nowNs).1.lastNs _).foldl _ (t.charge nowNs).1.account = _
          rw [hclock, charge_account hlimited hcall]
          rfl
      | other kind hother amount =>
          obtain ⟨_, hclock, haccount⟩ := call_other hlimited hother amount
          rw [hclock, haccount]
          rfl

theorem run_consumed (hlimited : t.Limited limit) (calls : List LedgerCall) :
    (t.run calls).ledger.consumedOf .wallTimeMs = t.ledger.consumedOf .wallTimeMs ∨
      t.ledger.consumedOf .wallTimeMs ≤ (t.run calls).ledger.consumedOf .wallTimeMs ∧
        (t.run calls).ledger.consumedOf .wallTimeMs ≤ limit := by
  induction calls generalizing t with
  | nil => exact Or.inl rfl
  | cons call rest ih =>
      have hcall := call_consumed hlimited call
      have hrest := ih (call_limited hlimited call)
      unfold run
      omega

theorem start_limited {limits : List BudgetLimit} {ledger : BudgetLedger}
    (hledger : BudgetLedger.fromLimits limits = .ok ledger)
    (hlimit : ledger.limits.get? .wallTimeMs = some limit) (taken : Dict BudgetKind Int)
    (nowNs : Int) : (start { ledger with consumed := taken } nowNs).Limited limit := by
  unfold BudgetLedger.fromLimits at hledger
  dsimp only at hledger
  split at hledger
  · cases hledger
  · cases hledger
    exact ⟨hlimit, rfl⟩

/-- As long as no charge is refused, the charges come to the whole milliseconds of the time
that has passed between the readings. Whether or not one is, a consumption within the limit
stays within it, and nothing is charged on top of one that a checkpoint brought over it. -/
theorem charged_whole_milliseconds {limits : List BudgetLimit} {ledger : BudgetLedger}
    {limit : Nat} (hledger : BudgetLedger.fromLimits limits = .ok ledger)
    (hlimit : ledger.limits.get? .wallTimeMs = some limit) (taken : Dict BudgetKind Int)
    (firstNs : Int) (calls : List LedgerCall) :
    let t := start { ledger with consumed := taken } firstNs
    let before := t.ledger.consumedOf .wallTimeMs
    let after := (t.run calls).ledger.consumedOf .wallTimeMs
    (t.accepts calls = true →
        after - before =
          (elapsedNs firstNs (calls.filterMap LedgerCall.reading?)).sum / 1000000) ∧
      (before ≤ limit → after ≤ limit) ∧ (limit < before → after = before) := by
  intro t before after
  have hlimited : t.Limited limit := start_limited hledger hlimit taken firstNs
  have hconsumed := run_consumed hlimited calls
  refine ⟨?_, fun _ => by omega, fun _ => by omega⟩
  intro haccepts
  have hproper : t.account.Proper 1000000 := ⟨le_refl 0, (by decide : (0 : Int) < 1000000)⟩
  have hdrawn : after = _ := congrArg Carry.drawn (run_account hlimited haccepts)
  rw [Carry.drawn_draws (by decide) hproper] at hdrawn
  have htotal : t.account.total 1000000 = 1000000 * before := by
    unfold Carry.total account
    exact add_zero _
  rw [hdrawn, htotal, Int.mul_add_ediv_left _ _ (by decide)]
  exact add_sub_cancel_left _ _

/-- Two short waits, a clock that went back and a wait from there: two milliseconds of three. -/
theorem charged_short_waits :
    let t := start { limits := [(.wallTimeMs, 3), (.toolCalls, 1)] } 0
    let calls : List LedgerCall := [.wallTime 700000, .wallTime 1400000,
      .other .toolCalls (by decide) 1, .wallTime 400000, .wallTime 1100000]
    (t.run calls).ledger.consumedOf .wallTimeMs - t.ledger.consumedOf .wallTimeMs =
        2100000 / 1000000 ∧
      (t.run calls).ledger.consumedOf .wallTimeMs ≤ 3 := by
  intro t calls
  have hledger :
      BudgetLedger.fromLimits [⟨.wallTimeMs, 3⟩, ⟨.toolCalls, 1⟩] = .ok t.ledger := by decide
  have hlimit : t.ledger.limits.get? .wallTimeMs = some 3 := by decide
  obtain ⟨hcharged, hwithin, _⟩ := charged_whole_milliseconds hledger hlimit [] 0 calls
  have hsum : (elapsedNs 0 (calls.filterMap LedgerCall.reading?)).sum = 2100000 := by decide
  rw [hsum] at hcharged
  exact ⟨hcharged (by decide), hwithin (by decide)⟩

end ActiveWallTime

end Codex2Lark
