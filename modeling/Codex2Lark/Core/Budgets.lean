import Codex2Lark.Core.Errors
import Codex2Lark.Lib.Dict

/-!
`core/budgets.py`: the in-memory ledger of one harness. A charge that exceeds
what is available is refused, so a limited kind never consumes beyond its limit.
-/

namespace Codex2Lark

open Lib

inductive BudgetKind where
  | toolCalls
  | externalWrites
  | wallTimeMs
  | costMicros
  | agentNodes
deriving DecidableEq, Repr

def BudgetKind.value : BudgetKind → String
  | .toolCalls => "tool_calls"
  | .externalWrites => "external_writes"
  | .wallTimeMs => "wall_time_ms"
  | .costMicros => "cost_micros"
  | .agentNodes => "agent_nodes"

/-- `BudgetKind(text)`. -/
def BudgetKind.ofValue? (text : String) : Option BudgetKind :=
  [.toolCalls, .externalWrites, .wallTimeMs, .costMicros, .agentNodes].find?
    fun kind => kind.value = text

/-- The maximum is a natural number, which is what `__post_init__` checks. -/
structure BudgetLimit where
  kind : BudgetKind
  maximum : Nat
deriving DecidableEq, Repr

structure BudgetLedger where
  limits : Dict BudgetKind Nat
  consumed : Dict BudgetKind Int := []
  reserved : Dict BudgetKind Int := []
deriving DecidableEq, Repr

namespace BudgetLedger

def fromLimits (limits : List BudgetLimit) : Except PyError BudgetLedger :=
  let values := Dict.ofEntries (limits.map fun limit => (limit.kind, limit.maximum))
  if values.length ≠ limits.length then .error (.valueError "budget kinds must be unique")
  else .ok { limits := values }

def consumedOf (ledger : BudgetLedger) (kind : BudgetKind) : Int :=
  ledger.consumed.getD kind 0

def reservedOf (ledger : BudgetLedger) (kind : BudgetKind) : Int :=
  ledger.reserved.getD kind 0

def available (ledger : BudgetLedger) (kind : BudgetKind) : Int :=
  (ledger.limits.getD kind 0 : Nat) - ledger.consumedOf kind - ledger.reservedOf kind

/-- `consume` without `from_reservation`, the form the harness uses. -/
def consume (ledger : BudgetLedger) (kind : BudgetKind) (amount : Int) :
    Except PyError BudgetLedger :=
  if amount < 0 then .error (.valueError "budget amount cannot be negative")
  else if amount > ledger.available kind then
    .error (.valueError (kind.value ++ " budget exceeded"))
  else .ok { ledger with
    consumed := ledger.consumed.set kind (ledger.consumedOf kind + amount) }

/-- `AgentHarness._consume_if_limited`. -/
def consumeIfLimited (ledger : BudgetLedger) (kind : BudgetKind) (amount : Int) :
    Except PyError BudgetLedger :=
  if ledger.limits.contains kind then ledger.consume kind amount else .ok ledger

/-- What an accepted charge did. -/
theorem consume_ok {ledger after : BudgetLedger} {kind : BudgetKind} {amount : Int}
    (hok : ledger.consume kind amount = .ok after) :
    0 ≤ amount ∧ amount ≤ ledger.available kind ∧
      after.limits = ledger.limits ∧ after.reserved = ledger.reserved ∧
      after.consumedOf kind = ledger.consumedOf kind + amount ∧
      ∀ other, other ≠ kind → after.consumedOf other = ledger.consumedOf other := by
  unfold consume at hok
  split at hok
  · cases hok
  · split at hok
    · cases hok
    · cases hok
      refine ⟨by omega, by omega, rfl, rfl, ?_, ?_⟩
      · simp [consumedOf, Dict.getD_set_self]
      · intro other hne
        simp [consumedOf, Dict.getD_set_ne _ _ _ hne]

theorem consumeIfLimited_ok {ledger after : BudgetLedger} {kind : BudgetKind} {amount : Int}
    (hok : ledger.consumeIfLimited kind amount = .ok after) :
    after.limits = ledger.limits ∧ after.reserved = ledger.reserved ∧
      (∀ other, other ≠ kind → after.consumedOf other = ledger.consumedOf other) ∧
      (ledger.limits.contains kind = true →
        0 ≤ amount ∧ amount ≤ ledger.available kind ∧
          after.consumedOf kind = ledger.consumedOf kind + amount) ∧
      (ledger.limits.contains kind = false → after = ledger) := by
  unfold consumeIfLimited at hok
  split at hok
  · rename_i hin
    obtain ⟨hnonneg, hfits, hlimits, hreserved, hself, hother⟩ := consume_ok hok
    exact ⟨hlimits, hreserved, hother, fun _ => ⟨hnonneg, hfits, hself⟩, by simp [hin]⟩
  · rename_i hout
    cases hok
    exact ⟨rfl, rfl, fun _ _ => rfl, fun h => absurd h hout, fun _ => rfl⟩

end BudgetLedger

end Codex2Lark
