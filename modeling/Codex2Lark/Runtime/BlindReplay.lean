import Codex2Lark.Lib.Log
import Codex2Lark.Lib.Runs
import Codex2Lark.Runtime.Operations

/-!
No blind replay. A fresh claim sends its caller straight to the tool, every
other acquired claim goes through a reconciliation first. The claim is committed
before its caller resumes, so a fresh caller that resumes late can meet callers
that took its expired claim over and started the tool.
-/

namespace Codex2Lark.Operations

open Lib Idempotency

/-- The attempt that an event belongs to. -/
def OperationEvent.attempt? : OperationEvent → Option Nat
  | .claimed attempt _ _ | .reconciled attempt _ _ | .started attempt _
  | .returned attempt _ => some attempt
  | .completed _ _ => none

def ToolReconciliation.allowsReplay (answer : ToolReconciliation) : Bool :=
  answer.safeToExecute && answer.verification.state ≠ .verified

def IsStart (key : String) (event : OperationEvent) : Prop :=
  ∃ attempt, event = .started attempt key

def IsSafeReconciliation (key : String) (event : OperationEvent) : Prop :=
  ∃ attempt answer, event = .reconciled attempt key answer ∧ answer.allowsReplay = true

/-- What the journal promises about every key, read off the log. -/
structure NoBlindReplay (s : System) : Prop where
  reconciled : ∀ key, Log.Separated (IsStart key) (IsSafeReconciliation key) s.log
  oneFresh : ∀ key i j claim claim', .claimed i key claim ∈ s.log →
    .claimed j key claim' ∈ s.log → claim.isFresh = true → claim'.isFresh = true → i = j
  replayed : ∀ key ref i claim, [.completed key ref, .claimed i key claim].Sublist s.log →
    (∀ other, .started i other ∉ s.log) ∧
      ∀ attempt result, s.attempts[i]? = some attempt → .returned i result ∈ s.log →
        result = replay attempt.request ref

/-- A caller with the fresh claim resumes before any start for its key, and a
completed answer carries a reference that is not empty. -/
def ResumesInOrder (s : System) : OperationStep → Prop
  | .resume attempt => ∀ request claim, s.attempts[attempt]? = some ⟨request, .answered claim⟩ →
      (claim.isFresh = true → ∀ j, .started j request.key ∉ s.log) ∧
        (claim.state = .completed → claim.resultRef ≠ some "")
  | _ => True

/-- What the log knows about one attempt. -/
structure AttemptOk (log : List OperationEvent) (i : Nat) (attempt : Attempt) : Prop where
  silent : attempt.phase = .claiming → ∀ e ∈ log, e.attempt? ≠ some i
  answered : ∀ claim, attempt.phase = .answered claim →
    .claimed i attempt.request.key claim ∈ log ∧
      (∀ key claim', .claimed i key claim' ∈ log → claim' = claim) ∧
      (∀ key, .started i key ∉ log) ∧ ∀ result, .returned i result ∉ log
  ownKey : ∀ key claim, .claimed i key claim ∈ log → key = attempt.request.key
  refused : ∀ key claim, .claimed i key claim ∈ log → claim.acquired = false →
    (attempt.phase = .answered claim ∨ attempt.phase.isOver = true) ∧
      (∀ other, .started i other ∉ log) ∧
      (claim.state = .completed → ∀ result, .returned i result ∈ log →
        result = replay attempt.request (claim.resultRef.getD ""))

/-- The events that a segment of attempt `i` appends. The fresh start is kept
apart: it is the one that no reconciliation precedes. -/
inductive Shape (i : Nat) (key : String) : List OperationEvent → Prop
  | silent : Shape i key []
  | returned (result : ToolResult) : Shape i key [.returned i result]
  | reconciled (answer : ToolReconciliation) (hblocked : answer.allowsReplay = false) :
      Shape i key [.reconciled i key answer]
  | gaveUp (answer : ToolReconciliation) (hblocked : answer.allowsReplay = false)
      (result : ToolResult) : Shape i key [.reconciled i key answer, .returned i result]
  | restarted (answer : ToolReconciliation) (hsafe : answer.allowsReplay = true) :
      Shape i key [.reconciled i key answer, .started i key]

theorem Shape.own {i : Nat} {key : String} {events : List OperationEvent}
    (hshape : Shape i key events) : ∀ e ∈ events, e.attempt? = some i := by
  cases hshape <;> simp [OperationEvent.attempt?]

theorem Shape.no_claim {i : Nat} {key : String} {events : List OperationEvent}
    (hshape : Shape i key events) :
    (∀ j k claim, .claimed j k claim ∉ events) ∧ ∀ k ref, .completed k ref ∉ events := by
  cases hshape <;> simp

theorem Shape.separated {i : Nat} {key : String} {events log : List OperationEvent}
    (hshape : Shape i key events) {k : String}
    (hlog : Log.Separated (IsStart k) (IsSafeReconciliation k) log) :
    Log.Separated (IsStart k) (IsSafeReconciliation k) (log ++ events) := by
  have hother : ∀ {l : List OperationEvent} {e : OperationEvent},
      Log.Separated (IsStart k) (IsSafeReconciliation k) l → (∀ j, e ≠ .started j k) →
        Log.Separated (IsStart k) (IsSafeReconciliation k) (l ++ [e]) :=
    fun hl he => Log.separated_concat_other hl fun ⟨j, hj⟩ => he j hj
  cases hshape with
  | silent => simpa using hlog
  | returned result => exact hother hlog (by simp)
  | reconciled answer _ => exact hother hlog (by simp)
  | gaveUp answer _ result =>
      rw [List.append_cons]
      exact hother (hother hlog (by simp)) (by simp)
  | restarted answer hsafe =>
      rw [List.append_cons]
      by_cases hkey : key = k
      · refine Log.separated_concat_pair hlog ⟨i, answer, by rw [hkey], hsafe⟩ ?_
        rintro ⟨j, hj⟩
        cases hj
      · exact hother (hother hlog (by simp)) (by simp [hkey])

theorem Shape.followed {i : Nat} {key : String} {events log : List OperationEvent}
    (hshape : Shape i key events) {k : String}
    (hlog : Log.Followed (IsStart k) (IsSafeReconciliation k) log) :
    Log.Followed (IsStart k) (IsSafeReconciliation k) (log ++ events) := by
  have hother : ∀ {l : List OperationEvent} {e : OperationEvent},
      Log.Followed (IsStart k) (IsSafeReconciliation k) l →
      (∀ j answer, answer.allowsReplay = true → e ≠ .reconciled j k answer) →
        Log.Followed (IsStart k) (IsSafeReconciliation k) (l ++ [e]) :=
    fun hl he => Log.followed_concat_other hl fun ⟨j, answer, hj, hsafe⟩ => he j answer hsafe hj
  cases hshape with
  | silent => simpa using hlog
  | returned result => exact hother hlog (by simp)
  | reconciled answer hblocked => exact hother hlog (by rintro j _ hsafe ⟨⟩; simp_all)
  | gaveUp answer hblocked result =>
      rw [List.append_cons]
      exact hother (hother hlog (by rintro j _ hsafe ⟨⟩; simp_all)) (by simp)
  | restarted answer hsafe =>
      rw [List.append_cons]
      by_cases hkey : key = k
      · refine Log.followed_concat_mark ⟨i, by rw [hkey]⟩ ?_
        rintro ⟨j, _, hj, _⟩
        cases hj
      · exact hother (hother hlog (by rintro j _ _ ⟨⟩; exact hkey rfl)) (by simp)

/-- The claim of the attempt is behind it. -/
def OperationPhase.pastClaim : OperationPhase → Bool
  | .claiming | .answered _ => false
  | _ => true

theorem executionFailed_shape (i : Nat) (request : OperationRequest) (e : PyError) :
    Shape i request.key (executionFailed i request e).1 ∧
      (executionFailed i request e).2.pastClaim = true := by
  unfold executionFailed
  split
  · exact ⟨.returned _, rfl⟩
  · split
    · exact ⟨.returned _, rfl⟩
    · exact ⟨.silent, rfl⟩

theorem afterReconcile_shape (i : Nat) (request : OperationRequest)
    (answer : Except PyError ToolReconciliation) :
    Shape i request.key (afterReconcile i request answer).1 ∧
      (afterReconcile i request answer).2.pastClaim = true := by
  unfold afterReconcile
  cases answer with
  | error e =>
      dsimp only
      split
      · exact ⟨.returned _, rfl⟩
      · exact ⟨.silent, rfl⟩
  | ok answer =>
      dsimp only
      split
      · rename_i hverified
        have hblocked : answer.allowsReplay = false := by
          simp [ToolReconciliation.allowsReplay, hverified]
        split
        · exact ⟨.reconciled answer hblocked, rfl⟩
        · exact ⟨.gaveUp answer hblocked _, rfl⟩
      · rename_i hverified
        split
        · rename_i hsafe
          exact ⟨.restarted answer (by simp [ToolReconciliation.allowsReplay, hsafe, hverified]),
            rfl⟩
        · rename_i hblocked
          exact ⟨.gaveUp answer (by simp [ToolReconciliation.allowsReplay, hblocked]) _, rfl⟩

theorem afterExecute_shape (i : Nat) (request : OperationRequest)
    (answer : Except PyError (List (String × Json))) :
    Shape i request.key (afterExecute i request answer).1 ∧
      (afterExecute i request answer).2.pastClaim = true := by
  cases answer with
  | error e => exact executionFailed_shape i request e
  | ok observation => exact ⟨.silent, rfl⟩

theorem afterVerify_shape (i : Nat) (request : OperationRequest)
    (observation : List (String × Json)) (answer : Except PyError VerificationRecord) :
    Shape i request.key (afterVerify i request observation answer).1 ∧
      (afterVerify i request observation answer).2.pastClaim = true := by
  cases answer with
  | error e => exact executionFailed_shape i request e
  | ok verification =>
      simp only [afterVerify]
      split
      · split
        · exact ⟨.silent, rfl⟩
        · exact ⟨.returned _, rfl⟩
      · exact ⟨.returned _, rfl⟩

theorem afterComplete_shape (i : Nat) (request : OperationRequest) (error : Option PyError)
    (result : ToolResult) :
    Shape i request.key (afterComplete i error result).1 ∧
      (afterComplete i error result).2.pastClaim = true := by
  cases error with
  | some e => exact ⟨.silent, rfl⟩
  | none => exact ⟨.returned _, rfl⟩

/-- The three answers to a caller that did not get the claim or got it back for
recovery; the fresh start is the fourth. -/
theorem afterClaim_shape {i : Nat} {request : OperationRequest} {claim : IdempotencyClaim}
    (hfresh : claim.isFresh = false) :
    Shape i request.key (afterClaim i request claim).1 := by
  unfold afterClaim
  split
  · exact .returned _
  · split
    · exact .returned _
    · split
      · rename_i hacquired hrecovery
        simp [IdempotencyClaim.isFresh] at hfresh hacquired hrecovery
        rw [hfresh hacquired] at hrecovery
        cases hrecovery
      · exact .silent

theorem afterClaim_pastClaim (i : Nat) (request : OperationRequest) (claim : IdempotencyClaim) :
    (afterClaim i request claim).2.pastClaim = true := by
  unfold afterClaim
  repeat' split
  all_goals rfl

namespace AttemptOk

variable {log events : List OperationEvent} {i : Nat} {attempt : Attempt}

/-- Events of other attempts change nothing. -/
theorem append_other (hok : AttemptOk log i attempt)
    (hother : ∀ e ∈ events, e.attempt? ≠ some i) : AttemptOk (log ++ events) i attempt := by
  have hmem : ∀ {e : OperationEvent}, e.attempt? = some i → (e ∈ log ++ events ↔ e ∈ log) := by
    intro e he
    rw [List.mem_append]
    exact ⟨fun h => h.elim id fun hnew => absurd he (hother e hnew), Or.inl⟩
  have hclaimed : ∀ key claim,
      .claimed i key claim ∈ log ++ events ↔ .claimed i key claim ∈ log := fun _ _ => hmem rfl
  have hstarted : ∀ key, .started i key ∈ log ++ events ↔ .started i key ∈ log :=
    fun _ => hmem rfl
  have hreturned : ∀ result, .returned i result ∈ log ++ events ↔ .returned i result ∈ log :=
    fun _ => hmem rfl
  refine ⟨?_, ?_, ?_, ?_⟩
  · intro hphase e he
    rcases List.mem_append.mp he with hold | hnew
    · exact hok.silent hphase e hold
    · exact hother e hnew
  · simpa only [hclaimed, hstarted, hreturned] using hok.answered
  · simpa only [hclaimed] using hok.ownKey
  · simpa only [hclaimed, hstarted, hreturned] using hok.refused

/-- An attempt that is at work after its claim was not refused, and stays so. -/
theorem proceed (hok : AttemptOk log i attempt) (hpast : attempt.phase.pastClaim = true)
    (hopen : attempt.phase.isOver = false) (hnew : ∀ j key claim, .claimed j key claim ∉ events)
    {phase : OperationPhase} (hphase : phase.pastClaim = true) :
    AttemptOk (log ++ events) i ⟨attempt.request, phase⟩ := by
  have hold : ∀ {key claim}, .claimed i key claim ∈ log ++ events → .claimed i key claim ∈ log := by
    intro key claim hmem
    exact (List.mem_append.mp hmem).resolve_right (hnew i key claim)
  refine ⟨?_, ?_, fun key claim hmem => hok.ownKey key claim (hold hmem), ?_⟩
  · rintro rfl
    cases hphase
  · rintro claim rfl
    cases hphase
  · intro key claim hmem hrefused
    exfalso
    rcases (hok.refused key claim (hold hmem) hrefused).1 with hanswered | hover
    · rw [hanswered] at hpast
      cases hpast
    · rw [hopen] at hover
      cases hover

theorem crash (hok : AttemptOk log i attempt) : AttemptOk log i ⟨attempt.request, .crashed⟩ := by
  refine ⟨nofun, nofun, hok.ownKey, ?_⟩
  intro key claim hmem hrefused
  obtain ⟨_, hrest⟩ := hok.refused key claim hmem hrefused
  exact ⟨Or.inr rfl, hrest⟩

/-- The claim step of an attempt that has left no trace yet. -/
theorem claimed (hok : AttemptOk log i attempt) (hphase : attempt.phase = .claiming)
    (claim : IdempotencyClaim) :
    AttemptOk (log ++ [.claimed i attempt.request.key claim]) i
      ⟨attempt.request, .answered claim⟩ := by
  have hsilent := hok.silent hphase
  have hclaimed : ∀ {key claim'},
      .claimed i key claim' ∈ log ++ [.claimed i attempt.request.key claim] →
        key = attempt.request.key ∧ claim' = claim := by
    intro key claim' hmem
    rcases List.mem_append.mp hmem with hold | hnew
    · exact absurd rfl (hsilent _ hold)
    · simpa using hnew
  have hother : ∀ e, e.attempt? = some i → (∀ key claim', e ≠ .claimed i key claim') →
      e ∉ log ++ [.claimed i attempt.request.key claim] := by
    intro e he hne hmem
    rcases List.mem_append.mp hmem with hold | hnew
    · exact hsilent e hold he
    · exact hne _ _ (List.mem_singleton.mp hnew)
  have hstarted : ∀ key, .started i key ∉ log ++ [.claimed i attempt.request.key claim] :=
    fun _ => hother _ rfl (by simp)
  have hreturned : ∀ result,
      .returned i result ∉ log ++ [.claimed i attempt.request.key claim] :=
    fun _ => hother _ rfl (by simp)
  refine ⟨nofun, ?_, fun key claim' hmem => (hclaimed hmem).1, ?_⟩
  · rintro claim' hsame
    cases hsame
    exact ⟨by simp, fun _ _ hmem => (hclaimed hmem).2, hstarted, hreturned⟩
  · intro key claim' hmem _
    rw [(hclaimed hmem).2]
    exact ⟨Or.inl rfl, hstarted, fun _ result hmem => absurd hmem (hreturned result)⟩

/-- The segment after the claim. A completed answer is replayed. -/
theorem resume (hok : AttemptOk log i attempt) {claim : IdempotencyClaim}
    (hphase : attempt.phase = .answered claim)
    (hcompleted : claim.state = .completed → ∃ ref, claim.resultRef = some ref ∧ ref ≠ "") :
    AttemptOk (log ++ (afterClaim i attempt.request claim).1) i
      ⟨attempt.request, (afterClaim i attempt.request claim).2⟩ := by
  obtain ⟨_, hunique, hnoStart, hnoReturn⟩ := hok.answered claim hphase
  have hpast := afterClaim_pastClaim i attempt.request claim
  have hold : ∀ {key claim'},
      .claimed i key claim' ∈ log ++ (afterClaim i attempt.request claim).1 →
        .claimed i key claim' ∈ log := by
    intro key claim' hmem
    refine (List.mem_append.mp hmem).resolve_right ?_
    unfold afterClaim finished start
    repeat' split
    all_goals simp
  refine ⟨?_, ?_, fun key claim' hmem => hok.ownKey key claim' (hold hmem), ?_⟩
  · intro hclaiming
    dsimp only at hclaiming
    rw [hclaiming] at hpast
    cases hpast
  · intro claim' hanswered
    dsimp only at hanswered
    rw [hanswered] at hpast
    cases hpast
  · intro key claim' hmem hrefused
    have hsame := hunique key claim' (hold hmem)
    subst hsame
    by_cases hdone : claim'.state = .completed
    · obtain ⟨ref, href, hne⟩ := hcompleted hdone
      have hsegment : afterClaim i attempt.request claim' =
          finished i (replay attempt.request ref) := by
        simp [afterClaim, hdone, href, hne]
      rw [hsegment]
      refine ⟨Or.inr rfl, ?_, ?_⟩
      · simpa [finished] using hnoStart
      · intro _ result hmem
        rcases List.mem_append.mp hmem with h | h
        · exact absurd h (hnoReturn result)
        · simpa [finished, href] using h
    · have hsegment : afterClaim i attempt.request claim' =
          finished i (ToolExecutor.uncertain attempt.request.call
            attempt.request.definition.effect "operation_in_progress"
            "write claim is still active") := by
        simp [afterClaim, hdone, hrefused]
      rw [hsegment]
      refine ⟨Or.inr rfl, ?_, fun hcompleted => absurd hcompleted hdone⟩
      simpa [finished] using hnoStart

end AttemptOk

/-- The log against the journal rows, and every attempt against the log. -/
structure System.Ok (s : System) : Prop where
  unique : (s.rows.map IdempotencyRow.key).Nodup
  claimedRow : ∀ key i claim, .claimed i key claim ∈ s.log → findRow key s.rows ≠ none
  completedRow : ∀ key row, findRow key s.rows = some row → row.state = .completed →
    ∃ ref, row.resultRef = some ref ∧ .completed key ref ∈ s.log
  rowCompleted : ∀ key ref, .completed key ref ∈ s.log →
    ∃ row, findRow key s.rows = some row ∧ row.state = .completed ∧ row.resultRef = some ref
  claimAfter : ∀ key ref i claim, [.completed key ref, .claimed i key claim].Sublist s.log →
    claim = ⟨false, .completed, some ref, false⟩
  answerOf : ∀ key i claim, .claimed i key claim ∈ s.log → claim.state = .completed →
    ∃ ref, claim.resultRef = some ref ∧ [.completed key ref, .claimed i key claim].Sublist s.log
  oneFresh : ∀ key i j claim claim', .claimed i key claim ∈ s.log →
    .claimed j key claim' ∈ s.log → claim.isFresh = true → claim'.isFresh = true → i = j
  attempts : ∀ i attempt, s.attempts[i]? = some attempt → AttemptOk s.log i attempt
  known : ∀ e ∈ s.log, ∀ i, e.attempt? = some i → i < s.attempts.length
  separated : ∀ key, Log.Separated (IsStart key) (IsSafeReconciliation key) s.log
  followed : ∀ key, Log.Followed (IsStart key) (IsSafeReconciliation key) s.log

namespace System.Ok

variable {s : System}

/-- The promises follow from the invariant: a claim after the completion was
refused, and a refused attempt neither starts nor returns anything else. -/
theorem noBlindReplay (hok : s.Ok) : NoBlindReplay s := by
  refine ⟨hok.separated, hok.oneFresh, ?_⟩
  intro key ref i claim hsub
  have hanswer := hok.claimAfter key ref i claim hsub
  have hmem : .claimed i key claim ∈ s.log := hsub.subset (by simp)
  have hbound := hok.known _ hmem i rfl
  have hget : s.attempts[i]? = some s.attempts[i] := List.getElem?_eq_getElem hbound
  obtain ⟨_, hnoStart, hreplayed⟩ :=
    (hok.attempts i _ hget).refused key claim hmem (by rw [hanswer])
  refine ⟨hnoStart, ?_⟩
  intro attempt result hattempt hreturned
  rw [hget] at hattempt
  cases hattempt
  have hresult := hreplayed (by rw [hanswer]) result hreturned
  rw [hresult, hanswer]
  rfl

/-- The other attempts, and the bound on attempt numbers, after attempt `i`
moved on with its own events. -/
theorem advance_attempts (hok : s.Ok) {i : Nat} {attempt : Attempt} {events : List OperationEvent}
    {phase : OperationPhase} (hget : s.attempts[i]? = some attempt)
    (hown : ∀ e ∈ events, ∀ j, e.attempt? = some j → j = i)
    (hself : AttemptOk (s.log ++ events) i ⟨attempt.request, phase⟩) :
    (∀ j other, (s.attempts.set i ⟨attempt.request, phase⟩)[j]? = some other →
      AttemptOk (s.log ++ events) j other) ∧
    ∀ e ∈ s.log ++ events, ∀ j, e.attempt? = some j →
      j < (s.attempts.set i ⟨attempt.request, phase⟩).length := by
  have hbound : i < s.attempts.length := (List.getElem?_eq_some_iff.mp hget).1
  refine ⟨?_, ?_⟩
  · intro j other hother
    by_cases hij : i = j
    · subst hij
      rw [List.getElem?_set_self hbound] at hother
      cases hother
      exact hself
    · rw [List.getElem?_set_ne hij] at hother
      refine (hok.attempts j other hother).append_other ?_
      intro e he hj
      exact hij (hown e he j hj).symm
  · intro e he j hj
    rw [List.length_set]
    rcases List.mem_append.mp he with hold | hnew
    · exact hok.known e hold j hj
    · rw [hown e hnew j hj]
      exact hbound

/-- A segment that neither claims nor completes. -/
theorem advance (hok : s.Ok) {i : Nat} {attempt : Attempt} {segment : Segment}
    (hget : s.attempts[i]? = some attempt)
    (hown : ∀ e ∈ segment.1, e.attempt? = some i)
    (hclaim : ∀ j key claim, .claimed j key claim ∉ segment.1)
    (hcomplete : ∀ key ref, .completed key ref ∉ segment.1)
    (hself : AttemptOk (s.log ++ segment.1) i ⟨attempt.request, segment.2⟩)
    (hseparated : ∀ key, Log.Separated (IsStart key) (IsSafeReconciliation key)
      (s.log ++ segment.1))
    (hfollowed : ∀ key, Log.Followed (IsStart key) (IsSafeReconciliation key)
      (s.log ++ segment.1)) : (s.advance i attempt.request segment).Ok := by
  have holdClaim : ∀ {j key claim}, .claimed j key claim ∈ s.log ++ segment.1 →
      .claimed j key claim ∈ s.log := fun hmem =>
    (List.mem_append.mp hmem).resolve_right (hclaim _ _ _)
  have holdComplete : ∀ {key ref}, .completed key ref ∈ s.log ++ segment.1 →
      .completed key ref ∈ s.log := fun hmem =>
    (List.mem_append.mp hmem).resolve_right (hcomplete _ _)
  obtain ⟨hattempts, hknown⟩ := hok.advance_attempts hget
    (fun e he j hj => Option.some.inj (hj.symm.trans (hown e he))) hself
  refine ⟨hok.unique, ?_, ?_, ?_, ?_, ?_, ?_, hattempts, hknown, hseparated, hfollowed⟩
  · exact fun key j claim hmem => hok.claimedRow key j claim (holdClaim hmem)
  · intro key row hfind hstate
    obtain ⟨ref, href, hmem⟩ := hok.completedRow key row hfind hstate
    exact ⟨ref, href, List.mem_append_left _ hmem⟩
  · exact fun key ref hmem => hok.rowCompleted key ref (holdComplete hmem)
  · exact fun key ref j claim hsub =>
      hok.claimAfter key ref j claim (Log.pair_append hsub (hclaim _ _ _))
  · intro key j claim hmem hstate
    obtain ⟨ref, href, hsub⟩ := hok.answerOf key j claim (holdClaim hmem) hstate
    exact ⟨ref, href, hsub.trans (List.sublist_append_left _ _)⟩
  · exact fun key j k claim claim' hmem hmem' =>
      hok.oneFresh key j k claim claim' (holdClaim hmem) (holdClaim hmem')

theorem advance_shape (hok : s.Ok) {i : Nat} {attempt : Attempt} {segment : Segment}
    (hget : s.attempts[i]? = some attempt) (hshape : Shape i attempt.request.key segment.1)
    (hself : AttemptOk (s.log ++ segment.1) i ⟨attempt.request, segment.2⟩) :
    (s.advance i attempt.request segment).Ok :=
  hok.advance hget hshape.own hshape.no_claim.1 hshape.no_claim.2 hself
    (fun key => hshape.separated (hok.separated key))
    (fun key => hshape.followed (hok.followed key))

/-- The steps of an attempt that is at work after its claim. -/
theorem proceed (hok : s.Ok) {i : Nat} {attempt : Attempt} {segment : Segment}
    (hget : s.attempts[i]? = some attempt) (hpast : attempt.phase.pastClaim = true)
    (hopen : attempt.phase.isOver = false)
    (hsegment : Shape i attempt.request.key segment.1 ∧ segment.2.pastClaim = true) :
    (s.advance i attempt.request segment).Ok :=
  hok.advance_shape hget hsegment.1
    ((hok.attempts i attempt hget).proceed hpast hopen hsegment.1.no_claim.1 hsegment.2)

theorem call (hok : s.Ok) (request : OperationRequest) : (s.call request).Ok := by
  refine ⟨hok.unique, hok.claimedRow, hok.completedRow, hok.rowCompleted, hok.claimAfter,
    hok.answerOf, hok.oneFresh, ?_, ?_, hok.separated, hok.followed⟩
  · intro i attempt hget
    by_cases hlt : i < s.attempts.length
    · refine hok.attempts i attempt ?_
      rwa [System.call, List.getElem?_append_left hlt] at hget
    · have hi : ∀ e ∈ s.log, e.attempt? ≠ some i := fun e he hattempt =>
        hlt (hok.known e he i hattempt)
      have hphase : ∀ claim, attempt.phase ≠ .answered claim := by
        intro claim hanswered
        rw [System.call, List.getElem?_append_right (by omega)] at hget
        have hnew := List.mem_of_getElem? hget
        rw [List.mem_singleton] at hnew
        rw [hnew] at hanswered
        dsimp only at hanswered
        split at hanswered <;> cases hanswered
      exact ⟨fun _ => hi, fun claim h => absurd h (hphase claim),
        fun _ _ hmem => absurd rfl (hi _ hmem), fun _ _ hmem => absurd rfl (hi _ hmem)⟩
  · intro e he i hattempt
    have := hok.known e he i hattempt
    simp only [System.call, List.length_append, List.length_singleton]
    omega

theorem commitClaim (hok : s.Ok) {i : Nat} {attempt : Attempt}
    (hget : s.attempts[i]? = some attempt) (hphase : attempt.phase = .claiming)
    (claimLeaseMs nowMs : Int) :
    (s.commitClaim claimLeaseMs i attempt.request nowMs).Ok := by
  unfold System.commitClaim
  generalize hargs : ({ key := attempt.request.key
                        operationKind := attempt.request.definition.toolId
                        owner := attempt.request.owner, expiresAtMs := nowMs + claimLeaseMs
                        nowMs } : ClaimArgs) = args
  have hkey : attempt.request.key = args.key := by rw [← hargs]
  have hself := (hok.attempts i attempt hget).claimed hphase (claimIdempotency args s.rows).1
  obtain ⟨hattempts, hknown⟩ :=
    hok.advance_attempts hget (by simp [OperationEvent.attempt?]) hself
  obtain ⟨newRow, hnewRow, hnewCompleted⟩ := findRow_claim_self args s.rows
  have hnewClaim : ∀ {k j claim}, .claimed j k claim ∈ s.log ++
      [.claimed i attempt.request.key (claimIdempotency args s.rows).1] →
      .claimed j k claim ∈ s.log ∨
        (j = i ∧ k = args.key ∧ claim = (claimIdempotency args s.rows).1) := by
    intro k j claim hmem
    simpa [hkey] using hmem
  have hnewComplete : ∀ {k ref}, .completed k ref ∈ s.log ++
      [.claimed i attempt.request.key (claimIdempotency args s.rows).1] →
      .completed k ref ∈ s.log := by
    intro k ref hmem
    simpa using hmem
  refine ⟨claim_keys_nodup hok.unique, ?_, ?_, ?_, ?_, ?_, ?_, hattempts, hknown, ?_, ?_⟩
  · intro k j claim hmem
    by_cases hk : k = args.key
    · rw [hk]
      exact Option.ne_none_iff_exists'.mpr ⟨newRow, hnewRow⟩
    · rcases hnewClaim hmem with hold | ⟨_, hsame, _⟩
      · change findRow k (claimIdempotency args s.rows).2 ≠ none
        rw [findRow_claim_ne hk]
        exact hok.claimedRow k j claim hold
      · exact absurd hsame hk
  · intro k row hfind hstate
    change findRow k (claimIdempotency args s.rows).2 = some row at hfind
    have hold : findRow k s.rows = some row := by
      by_cases hk : k = args.key
      · rw [hk, hnewRow] at hfind
        cases hfind
        rw [hk]
        exact hnewCompleted hstate
      · rwa [findRow_claim_ne hk] at hfind
    obtain ⟨ref, href, hmem⟩ := hok.completedRow k row hold hstate
    exact ⟨ref, href, List.mem_append_left _ hmem⟩
  · intro k ref hmem
    obtain ⟨row, hfind, hstate, href⟩ := hok.rowCompleted k ref (hnewComplete hmem)
    refine ⟨row, ?_, hstate, href⟩
    change findRow k (claimIdempotency args s.rows).2 = some row
    by_cases hk : k = args.key
    · rw [hk] at hfind ⊢
      rw [claim_of_completed hfind hstate]
      exact hfind
    · rwa [findRow_claim_ne hk]
  · intro k ref j claim hsub
    change [_, _].Sublist (s.log ++
      [.claimed i attempt.request.key (claimIdempotency args s.rows).1]) at hsub
    rcases Log.pair_concat_cases hsub with hold | ⟨hsame, hmem⟩
    · exact hok.claimAfter k ref j claim hold
    · obtain ⟨_, hk, hclaim⟩ := OperationEvent.claimed.inj hsame
      rw [hk] at hmem
      obtain ⟨row, hfind, hstate, href⟩ := hok.rowCompleted _ ref hmem
      rw [hkey] at hfind
      rw [hclaim, claim_of_completed hfind hstate, href]
  · intro k j claim hmem hstate
    rcases hnewClaim hmem with hold | ⟨rfl, rfl, rfl⟩
    · obtain ⟨ref, href, hsub⟩ := hok.answerOf k j claim hold hstate
      exact ⟨ref, href, hsub.trans (List.sublist_append_left _ _)⟩
    · obtain ⟨row, hfind, hdone⟩ := completed_of_claim hstate
      obtain ⟨ref, href, hlogged⟩ := hok.completedRow args.key row hfind hdone
      refine ⟨ref, ?_, ?_⟩
      · rw [claim_of_completed hfind hdone]
        exact href
      · dsimp only [System.advance]
        rw [hkey]
        exact Log.pair_concat hlogged
  · intro k j l claim claim' hmem hmem' hfresh hfresh'
    rcases hnewClaim hmem with hold | ⟨rfl, rfl, rfl⟩
    · rcases hnewClaim hmem' with hold' | ⟨rfl, rfl, rfl⟩
      · exact hok.oneFresh k j l claim claim' hold hold' hfresh hfresh'
      · exact absurd (absent_of_fresh hfresh') (hok.claimedRow _ j claim hold)
    · rcases hnewClaim hmem' with hold' | ⟨rfl, _, _⟩
      · exact absurd (absent_of_fresh hfresh) (hok.claimedRow _ l claim' hold')
      · rfl
  · exact fun k => Log.separated_concat_other (hok.separated k) (by rintro ⟨j, hj⟩; cases hj)
  · exact fun k => Log.followed_concat_other (hok.followed k)
      (by rintro ⟨j, answer, hj, _⟩; cases hj)

theorem commitComplete (hok : s.Ok) {i : Nat} {attempt : Attempt} {resultRef : String}
    {result : ToolResult} (hget : s.attempts[i]? = some attempt)
    (hphase : attempt.phase = .completing resultRef result) (nowMs : Int) :
    (s.commitComplete i attempt.request resultRef result nowMs).Ok := by
  have hpast : attempt.phase.pastClaim = true := by rw [hphase]; rfl
  have hopen : attempt.phase.isOver = false := by rw [hphase]; rfl
  unfold System.commitComplete
  cases hdone : completeIdempotency ⟨attempt.request.key, attempt.request.owner, resultRef, nowMs⟩
      s.rows with
  | error e => exact hok.proceed hget hpast hopen ⟨.silent, rfl⟩
  | ok rows =>
      obtain ⟨hrows, row, hfind, hstate, _, hafter⟩ := completeIdempotency_ok hok.unique hdone
      have hself : AttemptOk (s.log ++ [.completed attempt.request.key resultRef]) i
          ⟨attempt.request, .completed none result⟩ :=
        (hok.attempts i attempt hget).proceed hpast hopen (by simp) rfl
      obtain ⟨hattempts, hknown⟩ := hok.advance_attempts hget
        (by simp [OperationEvent.attempt?]) hself
      have hother : ∀ {k}, k ≠ attempt.request.key → findRow k rows = findRow k s.rows := by
        intro k hk
        rw [hrows]
        exact findRow_complete_ne hk
      have hnever : ∀ ref, .completed attempt.request.key ref ∉ s.log := by
        intro ref hmem
        obtain ⟨other, hfind', hdone', _⟩ := hok.rowCompleted _ ref hmem
        rw [hfind] at hfind'
        cases hfind'
        exact hstate hdone'
      have hnewClaim : ∀ {k j claim},
          .claimed j k claim ∈ s.log ++ [.completed attempt.request.key resultRef] →
            .claimed j k claim ∈ s.log := by
        intro k j claim hmem
        simpa using hmem
      refine ⟨?_, ?_, ?_, ?_, ?_, ?_, ?_, hattempts, hknown, ?_, ?_⟩
      · change (rows.map IdempotencyRow.key).Nodup
        rw [hrows, completed_keys]
        exact hok.unique
      · intro k j claim hmem
        change findRow k rows ≠ none
        by_cases hk : k = attempt.request.key
        · rw [hk, hafter]
          simp
        · rw [hother hk]
          exact hok.claimedRow k j claim (hnewClaim hmem)
      · intro k old hfind' hdone'
        change findRow k rows = some old at hfind'
        by_cases hk : k = attempt.request.key
        · rw [hk, hafter] at hfind'
          cases hfind'
          exact ⟨resultRef, rfl, by simp [System.advance, hk]⟩
        · rw [hother hk] at hfind'
          obtain ⟨ref, href, hmem⟩ := hok.completedRow k old hfind' hdone'
          exact ⟨ref, href, List.mem_append_left _ hmem⟩
      · intro k ref hmem
        rcases List.mem_append.mp hmem with hold | hnew
        · obtain ⟨old, hfind', hdone', href⟩ := hok.rowCompleted k ref hold
          have hk : k ≠ attempt.request.key := by
            rintro rfl
            exact hnever ref hold
          exact ⟨old, (hother hk).trans hfind', hdone', href⟩
        · obtain ⟨rfl, rfl⟩ := OperationEvent.completed.inj (List.mem_singleton.mp hnew)
          exact ⟨_, hafter, rfl, rfl⟩
      · exact fun k ref j claim hsub =>
          hok.claimAfter k ref j claim (Log.pair_append hsub (by simp))
      · intro k j claim hmem hdone'
        obtain ⟨ref, href, hsub⟩ := hok.answerOf k j claim (hnewClaim hmem) hdone'
        exact ⟨ref, href, hsub.trans (List.sublist_append_left _ _)⟩
      · exact fun k j l claim claim' hmem hmem' =>
          hok.oneFresh k j l claim claim' (hnewClaim hmem) (hnewClaim hmem')
      · exact fun k => Log.separated_concat_other (hok.separated k)
          (by rintro ⟨j, hj⟩; cases hj)
      · exact fun k => Log.followed_concat_other (hok.followed k)
          (by rintro ⟨j, answer, hj, _⟩; cases hj)

/-- The answer that an attempt waits on names the reference of the completion
before it. -/
theorem answered_completed (hok : s.Ok) {i : Nat} {attempt : Attempt} {claim : IdempotencyClaim}
    (hget : s.attempts[i]? = some attempt) (hphase : attempt.phase = .answered claim)
    (hstate : claim.state = .completed) :
    ∃ ref, claim.resultRef = some ref ∧
      [.completed attempt.request.key ref, .claimed i attempt.request.key claim].Sublist s.log :=
  hok.answerOf _ i claim ((hok.attempts i attempt hget).answered claim hphase).1 hstate

theorem afterClaim_fresh (hok : s.Ok) {i : Nat} {attempt : Attempt} {claim : IdempotencyClaim}
    (hget : s.attempts[i]? = some attempt) (hphase : attempt.phase = .answered claim)
    (hfresh : claim.isFresh = true) :
    afterClaim i attempt.request claim = start i attempt.request := by
  have hstate : claim.state ≠ .completed := by
    intro hstate
    obtain ⟨ref, _, hsub⟩ := hok.answered_completed hget hphase hstate
    rw [hok.claimAfter _ ref i claim hsub] at hfresh
    cases hfresh
  obtain ⟨hacquired, hrecovery⟩ : claim.acquired = true ∧ claim.recoveryRequired = false := by
    simpa [IdempotencyClaim.isFresh] using hfresh
  simp [afterClaim, hstate, hacquired, hrecovery]

theorem resume (hok : s.Ok) {i : Nat} {attempt : Attempt} {claim : IdempotencyClaim}
    (hget : s.attempts[i]? = some attempt) (hphase : attempt.phase = .answered claim)
    (hfirst : claim.isFresh = true → ∀ j, .started j attempt.request.key ∉ s.log)
    (hfilled : claim.state = .completed → claim.resultRef ≠ some "") :
    (s.advance i attempt.request (afterClaim i attempt.request claim)).Ok := by
  have hself := (hok.attempts i attempt hget).resume hphase fun hstate => by
    obtain ⟨ref, href, _⟩ := hok.answered_completed hget hphase hstate
    exact ⟨ref, href, fun hempty => hfilled hstate (hempty ▸ href)⟩
  by_cases hfresh : claim.isFresh = true
  · -- the only segment that starts the tool without a reconciliation
    have hstart : afterClaim i attempt.request claim = start i attempt.request :=
      hok.afterClaim_fresh hget hphase hfresh
    rw [hstart] at hself ⊢
    refine hok.advance hget (by simp [start, OperationEvent.attempt?]) (by simp [start])
      (by simp [start]) hself ?_ ?_
    · intro k
      by_cases hk : attempt.request.key = k
      · refine Log.separated_concat_first ?_ _
        rintro e he ⟨j, rfl⟩
        exact hfirst hfresh j (hk ▸ he)
      · exact Log.separated_concat_other (hok.separated k) (by rintro ⟨j, hj⟩; cases hj; exact hk rfl)
    · exact fun k => Log.followed_concat_other (hok.followed k)
        (by rintro ⟨j, answer, hj, _⟩; cases hj)
  · exact hok.advance_shape hget (afterClaim_shape (by simpa using hfresh)) hself

/-- Every step keeps the invariant when fresh callers resume in order. -/
theorem step (hok : s.Ok) {claimLeaseMs : Int} {label : OperationStep} {t : System}
    (hguard : ResumesInOrder s label) (hstep : System.step claimLeaseMs s label = some t) :
    t.Ok := by
  cases label with
  | call request =>
      cases hstep
      exact hok.call request
  | claim i nowMs =>
      simp only [System.step] at hstep
      split at hstep
      · rename_i request hget
        cases hstep
        exact hok.commitClaim hget rfl claimLeaseMs nowMs
      · cases hstep
  | resume i =>
      simp only [System.step] at hstep
      split at hstep
      · rename_i request claim hget
        cases hstep
        exact hok.resume hget rfl (hguard request claim hget).1 (hguard request claim hget).2
      · cases hstep
  | reconcile i answer =>
      simp only [System.step] at hstep
      split at hstep
      · rename_i request hget
        cases hstep
        exact hok.proceed hget rfl rfl (afterReconcile_shape i request answer)
      · cases hstep
  | execute i answer =>
      simp only [System.step] at hstep
      split at hstep
      · rename_i request hget
        cases hstep
        exact hok.proceed hget rfl rfl (afterExecute_shape i request answer)
      · cases hstep
  | verify i answer =>
      simp only [System.step] at hstep
      split at hstep
      · rename_i request observation hget
        cases hstep
        exact hok.proceed hget rfl rfl (afterVerify_shape i request observation answer)
      · cases hstep
  | complete i nowMs =>
      simp only [System.step] at hstep
      split at hstep
      · rename_i request resultRef result hget
        cases hstep
        exact hok.commitComplete hget rfl nowMs
      · cases hstep
  | resumeCompleted i =>
      simp only [System.step] at hstep
      split at hstep
      · rename_i request error result hget
        cases hstep
        exact hok.proceed hget rfl rfl (afterComplete_shape i request error result)
      · cases hstep
  | crash i =>
      simp only [System.step] at hstep
      split at hstep
      · rename_i request phase hget
        split at hstep
        · cases hstep
        · cases hstep
          refine hok.advance_shape hget .silent ?_
          simpa using (hok.attempts i ⟨request, phase⟩ hget).crash
      · cases hstep

theorem initial : System.Ok {} where
  unique := List.nodup_nil
  claimedRow := by simp
  completedRow := by simp [findRow]
  rowCompleted := by simp
  claimAfter := by simp
  answerOf := by simp
  oneFresh := by simp
  attempts := by simp
  known := by simp
  separated _ := Log.separated_nil
  followed _ := Log.followed_nil

/-- A step that keeps the promises resumed its caller in order. -/
theorem resumesInOrder (hok : s.Ok) {claimLeaseMs : Int} {label : OperationStep}
    (hnext : ∀ t, System.step claimLeaseMs s label = some t → NoBlindReplay t) :
    ResumesInOrder s label := by
  cases label with
  | resume i =>
      intro request claim hget
      have hpromise := hnext (s.advance i request (afterClaim i request claim))
        (by simp [System.step, hget])
      refine ⟨?_, ?_⟩
      · intro hfresh j hstarted
        have hseparated := hpromise.reconciled request.key
        rw [System.advance, hok.afterClaim_fresh hget rfl hfresh] at hseparated
        exact Log.not_separated_concat_mark (hok.followed request.key) hstarted ⟨j, rfl⟩ ⟨i, rfl⟩
          hseparated
      · intro hstate hempty
        obtain ⟨ref, href, hsub⟩ := hok.answered_completed hget rfl hstate
        have hrefEmpty : ref = "" := Option.some.inj (href.symm.trans hempty)
        have hclaim := hok.claimAfter request.key ref i claim hsub
        have hbound : i < s.attempts.length := (List.getElem?_eq_some_iff.mp hget).1
        have hsegment : afterClaim i request claim =
            finished i (ToolExecutor.uncertain request.call request.definition.effect
              "operation_in_progress" "write claim is still active") := by
          simp [afterClaim, hclaim, hrefEmpty]
        rw [hsegment] at hpromise
        have hresult := (hpromise.replayed request.key ref i claim
          (hsub.trans (List.sublist_append_left _ _))).2 _
            (ToolExecutor.uncertain request.call request.definition.effect
              "operation_in_progress" "write claim is still active")
            (List.getElem?_set_self hbound) (by simp [System.advance, finished])
        simp [replay, ToolExecutor.uncertain] at hresult
  | _ => trivial

end System.Ok

/-- Over every interleaving from an empty journal, the promises hold in all
states reached exactly when callers resume in order. -/
theorem no_blind_replay_iff_resumes_in_order (claimLeaseMs : Int) (steps : List OperationStep) :
    Always (System.step claimLeaseMs) NoBlindReplay steps {} ↔
      Along (System.step claimLeaseMs) ResumesInOrder steps {} :=
  always_iff_along (fun _ _ _ hok hguard hstep => hok.step hguard hstep)
    (fun _ hok => hok.noBlindReplay) (fun _ _ hok hnext => hok.resumesInOrder hnext)
    System.Ok.initial

/-- Two callers of one append. The first commits its fresh claim and stalls for
the length of the lease; the second takes the claim over, finds nothing written
and starts; then the first resumes and starts as well. -/
theorem stalled_fresh_claim_starts_twice :
    let request : OperationRequest :=
      { key := "operation", owner := "run:/root"
        call := ⟨"call-1", "lark.doc.append", []⟩
        definition := ⟨"lark.doc.append", 1, "Append to a document", [], .write, false⟩ }
    let nothingWritten : ToolReconciliation :=
      { observation := [], safeToExecute := true
        verification := ⟨.uncertain, "lark.doc.append", "the append is absent", []⟩ }
    ¬ Always (System.step 300000) NoBlindReplay
      [.call request, .call request, .claim 0 0, .claim 1 300000, .resume 1,
        .reconcile 1 (.ok nothingWritten), .resume 0] {} := by
  intro request nothingWritten hall
  have hlast := always_iff_reached.mp hall _ (List.prefix_refl _) _ rfl
  obtain ⟨e, hmem, _⟩ := hlast.reconciled "operation" (.started 1 "operation")
    (.started 0 "operation") [] ⟨1, rfl⟩ ⟨0, rfl⟩ (by decide)
  cases hmem

end Codex2Lark.Operations
