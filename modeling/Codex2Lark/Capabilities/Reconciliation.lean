import Codex2Lark.Capabilities.WriteTargets
import Codex2Lark.Runtime.Operations
import Mathlib.Data.List.Infix

/-!
`reconcile` of the document tools: what a recovered claim is told about its interrupted write.
The service reads a live state, in which the write has taken effect or has not.
-/

namespace Codex2Lark

open Lib Operations

/-- `_DocumentTool.reconcile`. -/
def inconclusive (toolId : String) : ToolReconciliation :=
  { observation := []
    verification :=
      { state := .uncertain, verifierId := toolId ++ ".reconcile"
        summary := "the live effect cannot be identified conclusively" } }

/-- `item in content`. -/
def occursIn (item content : String) : Bool := item.toList <:+: content.toList

/-- `all(isinstance(item, str) and item in content for item in required)`. -/
def requiredIn (required : List Json) (content : String) : Bool :=
  required.all fun item => match item with
    | .str text => occursIn text content
    | _ => false

/-- `str(inspected.get("data", ""))`. -/
def liveContent (lib : TextLibrary) (inspected : List (String × Json)) : String :=
  match Json.field? inspected "data" with
  | some data => lib.str data
  | none => ""

/-- What both tools put into the observation. -/
def reconciledStatus : Json := .obj [("status", .str "passed"), ("reconciled", .bool true)]

/-- `matches[0]`, where the search has one match and it is an object. -/
def soleMatch (found : List (String × Json)) : Option (List (String × Json)) :=
  match Json.field? found "matches" with
  | some (.arr [.obj candidate]) => some candidate
  | _ => none

/-- `candidate.get("url") or candidate.get("token")`, where it is a nonempty text. -/
def candidateReference (candidate : List (String × Json)) : Option String :=
  let reference := if IMMentionTaskHandler.isTruthy (Json.field? candidate "url") then
    Json.field? candidate "url" else Json.field? candidate "token"
  match reference with
  | some (.str reference) => if reference = "" then none else some reference
  | _ => none

/-- `arguments.get("required_text")`, where it is a list with an item. -/
def requiredTexts (arguments : List (String × Json)) : Option (List Json) :=
  match Json.field? arguments "required_text" with
  | some (.arr (item :: rest)) => some (item :: rest)
  | _ => none

/-! ### `feishu.docs.create` -/

structure CreateDocumentRequest where
  title : String
  content : String
  requiredText : List String
  identity : Identity
deriving DecidableEq, Repr

structure CreateDocumentTool where
  service : DocumentService
  identity : Identity
  lib : TextLibrary

namespace CreateDocumentTool

def toolId : String := "feishu.docs.create"

def properties : List String := ["title", "content_xml", "required_text"]

/-- `_request`. -/
def request (tool : CreateDocumentTool) (arguments : List (String × Json)) :
    Option CreateDocumentRequest := do
  let title ← RequestModel.text arguments "title" 1 800
  let content ← RequestModel.text arguments "content_xml" 1 8000000
  let requiredText ← RequestModel.texts arguments "required_text" 100
  some ⟨title, content, requiredText, tool.identity⟩

def validate (tool : CreateDocumentTool) (arguments : List (String × Json)) : Option PyError :=
  if !RequestModel.sameKeys arguments properties then
    some (.valueError "tool arguments must exactly match the strict schema")
  else if (tool.request arguments).isNone then some (.valueError (validationError.text))
  else none

/-- The answer for a found document. -/
def existing (inspected candidate : List (String × Json)) (reference : String) :
    ToolReconciliation :=
  { observation :=
      Dict.set (Dict.set inspected "resource" (.obj candidate)) "verification" reconciledStatus
    verification :=
      { state := .verified, verifierId := toolId ++ ".reconcile"
        summary := "existing live document matches the interrupted create intent"
        resourceRefs := [reference] } }

def reconcile (tool : CreateDocumentTool) (arguments : List (String × Json)) :
    Except PyError ToolReconciliation :=
  match tool.request arguments with
  | none => .error validationError
  | some request => do
      let found ← tool.service.search ⟨request.title, tool.identity⟩
      if Json.field? found "scope" ≠ some (.str "managed_folder") then .ok (inconclusive toolId)
      else
        match soleMatch found with
        | none => .ok (inconclusive toolId)
        | some candidate =>
            match candidateReference candidate with
            | none => .ok (inconclusive toolId)
            | some reference => do
                let inspected ← tool.service.inspect ⟨.ofText reference, tool.identity⟩
                match requiredTexts arguments with
                | none => .ok (inconclusive toolId)
                | some required =>
                    if requiredIn required (liveContent tool.lib inspected) then
                      .ok (existing inspected candidate reference)
                    else .ok (inconclusive toolId)

end CreateDocumentTool

/-! ### `feishu.docs.edit` -/

namespace EditDocumentTool

def toolId : String := "feishu.docs.edit"

/-- The document that `reconcile` reads. -/
def liveReference (tool : EditDocumentTool) (request : EditDocumentRequest) :
    Except PyError (Option ResourceRef) :=
  match request.target with
  | .resource ref => .ok (some ref)
  | .title title => do
      let found ← tool.service.search ⟨title, tool.identity⟩
      .ok (((soleMatch found).bind candidateReference).map ResourceRef.ofText)

/-- The answer for a document that has the texts. -/
def alreadyExists (inspected : List (String × Json)) (reference : String) : ToolReconciliation :=
  { observation := Dict.set inspected "verification" reconciledStatus
    verification :=
      { state := .verified, verifierId := toolId ++ ".reconcile"
        summary := "the required live document state already exists"
        resourceRefs := [reference] } }

def reconcile (tool : EditDocumentTool) (arguments : List (String × Json)) :
    Except PyError ToolReconciliation :=
  match tool.request arguments with
  | none => .error validationError
  | some request => do
      let resource ← tool.liveReference request
      match resource, requiredTexts arguments with
      | some ref, some required => do
          let inspected ← tool.service.inspect ⟨ref, tool.identity⟩
          if requiredIn required (liveContent tool.lib inspected) then do
            .ok (alreadyExists inspected (← ref.value))
          else .ok (inconclusive toolId)
      | _, _ => .ok (inconclusive toolId)

end EditDocumentTool

/-! ### The live state and the interrupted write -/

/-- How far an interrupted write came. -/
inductive WriteProgress where
  | lost
  | applied
deriving DecidableEq, Repr

section Soundness

variable {Live : Type}

/-- The live state that the recovery reads. -/
def liveAfter (effect : Live → Live) (before : Live) : WriteProgress → Live
  | .lost => before
  | .applied => effect before

def IsVerified (answer : Except PyError ToolReconciliation) : Prop :=
  ∃ reconciliation, answer = .ok reconciliation ∧ reconciliation.verification.state = .verified

instance : (answer : Except PyError ToolReconciliation) → Decidable (IsVerified answer)
  | .error _ => isFalse fun ⟨_, hok, _⟩ => nomatch hok
  | .ok reconciliation =>
      decidable_of_iff (reconciliation.verification.state = .verified)
        ⟨fun hverified => ⟨reconciliation, rfl, hverified⟩, fun ⟨_, hok, hverified⟩ => by
          cases hok
          exact hverified⟩

/-- A verified answer proves that the write was applied. -/
def ProvesEffect (reconcile : Live → Except PyError ToolReconciliation) (effect : Live → Live)
    (before : Live) : Prop :=
  ∀ progress, IsVerified (reconcile (liveAfter effect before progress)) → progress = .applied

theorem provesEffect_iff {reconcile : Live → Except PyError ToolReconciliation}
    {effect : Live → Live} {before : Live} :
    ProvesEffect reconcile effect before ↔ ¬ IsVerified (reconcile before) := by
  constructor
  · intro hproves hverified
    have happlied := hproves .lost hverified
    cases happlied
  · intro hbefore progress hverified
    cases progress with
    | lost => exact absurd hverified hbefore
    | applied => rfl

end Soundness

/-- The document at a reference can be read and its text has all of the required texts, of which
there is one at least. -/
def HasRequiredText (service : DocumentService) (lib : TextLibrary) (identity : Identity)
    (arguments : List (String × Json)) (ref : ResourceRef) : Prop :=
  ∃ inspected required, service.inspect ⟨ref, identity⟩ = .ok inspected ∧
    Json.field? arguments "required_text" = some (.arr required) ∧ required ≠ [] ∧
    ∀ item ∈ required, ∃ text, item = .str text ∧
      text.toList <:+: (liveContent lib inspected).toList

/-- A search finds one document, whose reference is the text. -/
def FindsOne (found : List (String × Json)) (reference : String) : Prop :=
  ∃ candidate, Json.field? found "matches" = some (.arr [.obj candidate]) ∧
    candidateReference candidate = some reference

/-- The document that the edit names has the required texts. -/
def EditDocumentTool.TextsArePresent (tool : EditDocumentTool) (arguments : List (String × Json)) :
    Prop :=
  ∃ request, tool.request arguments = some request ∧
    match request.target with
    | .resource ref => HasRequiredText tool.service tool.lib tool.identity arguments ref
    | .title title => ∃ found reference, tool.service.search ⟨title, tool.identity⟩ = .ok found ∧
        FindsOne found reference ∧
        HasRequiredText tool.service tool.lib tool.identity arguments (.ofText reference)

/-- The managed folder has one document of the title, with the required texts. -/
def CreateDocumentTool.TwinExists (tool : CreateDocumentTool) (arguments : List (String × Json)) :
    Prop :=
  ∃ request found reference, tool.request arguments = some request ∧
    tool.service.search ⟨request.title, tool.identity⟩ = .ok found ∧
    Json.field? found "scope" = some (.str "managed_folder") ∧ FindsOne found reference ∧
    HasRequiredText tool.service tool.lib tool.identity arguments (.ofText reference)

/-! ### Reading the answers -/

@[simp] theorem inconclusive_not_verified (toolId : String) :
    ¬ IsVerified (.ok (inconclusive toolId)) := by
  rintro ⟨answer, hok, hverified⟩
  cases hok
  cases hverified

@[simp] theorem error_not_verified (e : PyError) : ¬ IsVerified (.error e) := by
  rintro ⟨answer, hok, _⟩
  cases hok

theorem requiredIn_iff {required : List Json} {content : String} :
    requiredIn required content = true ↔
      ∀ item ∈ required, ∃ text, item = .str text ∧ text.toList <:+: content.toList := by
  unfold requiredIn
  rw [List.all_eq_true]
  constructor
  · intro hall item hitem
    have hin := hall item hitem
    cases item with
    | str text => exact ⟨text, rfl, by simpa [occursIn] using hin⟩
    | _ => simp at hin
  · intro hall item hitem
    obtain ⟨text, rfl, hin⟩ := hall item hitem
    simpa [occursIn] using hin

theorem requiredTexts_eq_some {arguments : List (String × Json)} {required : List Json} :
    requiredTexts arguments = some required ↔
      Json.field? arguments "required_text" = some (.arr required) ∧ required ≠ [] := by
  unfold requiredTexts
  constructor
  · intro hrequired
    split at hrequired
    · rename_i item rest hfield
      cases hrequired
      exact ⟨hfield, by simp⟩
    · cases hrequired
  · rintro ⟨hfield, hnonempty⟩
    rw [hfield]
    cases required with
    | nil => exact absurd rfl hnonempty
    | cons item rest => rfl

theorem soleMatch_eq_some {found candidate : List (String × Json)} :
    soleMatch found = some candidate ↔
      Json.field? found "matches" = some (.arr [.obj candidate]) := by
  unfold soleMatch
  constructor
  · intro hsole
    split at hsole
    · rename_i only hfield
      cases hsole
      exact hfield
    · cases hsole
  · intro hfield
    rw [hfield]

theorem findsOne_iff {found : List (String × Json)} {reference : String} :
    FindsOne found reference ↔
      (soleMatch found).bind candidateReference = some reference := by
  simp only [FindsOne, Option.bind_eq_some_iff, soleMatch_eq_some]

theorem hasRequiredText_iff {service : DocumentService} {lib : TextLibrary} {identity : Identity}
    {arguments : List (String × Json)} {ref : ResourceRef} :
    HasRequiredText service lib identity arguments ref ↔
      ∃ inspected required, service.inspect ⟨ref, identity⟩ = .ok inspected ∧
        requiredTexts arguments = some required ∧
        requiredIn required (liveContent lib inspected) = true := by
  simp only [HasRequiredText, requiredTexts_eq_some, requiredIn_iff, and_assoc]

/-- A reference made of a text has a value. -/
theorem ResourceRef.ofText_value (text : String) :
    ∃ value, (ResourceRef.ofText text).value = .ok value := by
  unfold ResourceRef.ofText
  split
  · rename_i hhttps
    obtain ⟨rest, hrest⟩ := List.isPrefixOf_iff_prefix.mp hhttps
    have hhead : 'h' ∈ (stripField text).toList := by
      have hspace : isWhiteSpace 'h' = false := by decide
      have hdrop : text.toList.dropWhile isWhiteSpace = text.toList := by
        rw [← hrest]
        rfl
      unfold stripField
      rw [hdrop, ← hrest]
      simp only [String.toList_ofList, List.mem_reverse]
      have hsplit : ("https://".toList ++ rest).reverse =
          ("ttps://".toList ++ rest).reverse ++ ['h'] := by simp
      rw [hsplit, List.dropWhile_append]
      split
      · simp [hspace]
      · simp
    refine ⟨stripField text, ?_⟩
    unfold ResourceRef.value
    dsimp only
    rw [if_neg]
    intro hempty
    rw [hempty] at hhead
    simp at hhead
  · exact ⟨_, rfl⟩

/-- Whatever an accepted edit refers to has a value. -/
theorem EditDocumentTool.request_resource {tool : EditDocumentTool}
    {arguments : List (String × Json)} {request : EditDocumentRequest} {ref : ResourceRef}
    (hrequest : tool.request arguments = some request) (htarget : request.target = .resource ref) :
    ∃ value, ref.value = .ok value := by
  unfold EditDocumentTool.request at hrequest
  simp only [Option.bind_eq_bind, Option.bind_eq_some_iff] at hrequest
  obtain ⟨title, _, hchosen⟩ := hrequest
  split at hchosen
  · rename_i given hgiven _
    simp only [Option.bind_some, Option.bind_eq_some_iff] at hchosen
    obtain ⟨operation, _, summary, _, required, _, hmade⟩ := hchosen
    cases hmade
    cases htarget
    unfold RequestModel.resource at hgiven
    split at hgiven
    · split at hgiven
      · cases hgiven
      · cases hgiven
        exact ResourceRef.ofText_value _
    · cases hgiven
  · simp only [Option.bind_some, Option.bind_eq_some_iff] at hchosen
    obtain ⟨operation, _, summary, _, required, _, hmade⟩ := hchosen
    cases hmade
    cases htarget
  · simp at hchosen

namespace EditDocumentTool

variable {tool : EditDocumentTool} {arguments : List (String × Json)}

/-- The answer once the document is known. -/
theorem verified_of_reference {request : EditDocumentRequest} {ref : ResourceRef}
    (hrequest : tool.request arguments = some request)
    (hreference : tool.liveReference request = .ok (some ref))
    (hvalue : ∃ value, ref.value = .ok value) :
    IsVerified (tool.reconcile arguments) ↔
      HasRequiredText tool.service tool.lib tool.identity arguments ref := by
  obtain ⟨value, hvalue⟩ := hvalue
  rw [hasRequiredText_iff]
  unfold reconcile
  rw [hrequest]
  dsimp only
  rw [hreference]
  change IsVerified (match some ref, requiredTexts arguments with
    | some ref, some required => _
    | _, _ => _) ↔ _
  cases hrequired : requiredTexts arguments with
  | none => simp
  | some required =>
      dsimp only
      cases hinspect : tool.service.inspect ⟨ref, tool.identity⟩ with
      | error e =>
          change IsVerified (.error e) ↔ _
          simp
      | ok inspected =>
          change IsVerified (if requiredIn required (liveContent tool.lib inspected) = true then
            _ else _) ↔ _
          by_cases hin : requiredIn required (liveContent tool.lib inspected) = true
          · rw [if_pos hin, hvalue]
            refine ⟨fun _ => ⟨inspected, required, rfl, rfl, hin⟩, fun _ => ?_⟩
            exact ⟨alreadyExists inspected value, rfl, rfl⟩
          · rw [if_neg hin]
            refine ⟨fun hverified => absurd hverified (inconclusive_not_verified _), ?_⟩
            rintro ⟨read, texts, hread, htexts, hpresent⟩
            cases hread
            cases htexts
            exact absurd hpresent hin

/-- An edit whose document is not known stays undecided. -/
theorem not_verified_of_unresolved {request : EditDocumentRequest}
    (hrequest : tool.request arguments = some request)
    (hreference : ∀ ref, tool.liveReference request ≠ .ok (some ref)) :
    ¬ IsVerified (tool.reconcile arguments) := by
  unfold reconcile
  rw [hrequest]
  dsimp only
  cases hlive : tool.liveReference request with
  | error e =>
      change ¬ IsVerified (.error e)
      simp
  | ok resource =>
      cases resource with
      | none =>
          change ¬ IsVerified (.ok (inconclusive toolId))
          simp
      | some ref => exact absurd hlive (hreference ref)

theorem isVerified_iff :
    IsVerified (tool.reconcile arguments) ↔ tool.TextsArePresent arguments := by
  unfold TextsArePresent
  cases hrequest : tool.request arguments with
  | none =>
      unfold reconcile
      rw [hrequest]
      simp
  | some request =>
      have honly : (∃ found, some request = some found ∧
          match found.target with
          | .resource ref => HasRequiredText tool.service tool.lib tool.identity arguments ref
          | .title title => ∃ found reference,
              tool.service.search ⟨title, tool.identity⟩ = .ok found ∧ FindsOne found reference ∧
              HasRequiredText tool.service tool.lib tool.identity arguments (.ofText reference)) ↔
          _ := ⟨fun ⟨_, hsame, hpresent⟩ => by cases hsame; exact hpresent,
            fun hpresent => ⟨request, rfl, hpresent⟩⟩
      rw [honly]
      cases htarget : request.target with
      | resource ref =>
          have hlive : tool.liveReference request = .ok (some ref) := by
            unfold liveReference
            rw [htarget]
          exact verified_of_reference hrequest hlive (request_resource hrequest htarget)
      | title title =>
          dsimp only
          have hlive : tool.liveReference request = (do
              let found ← tool.service.search ⟨title, tool.identity⟩
              .ok (((soleMatch found).bind candidateReference).map ResourceRef.ofText)) := by
            unfold liveReference
            rw [htarget]
          cases hsearch : tool.service.search ⟨title, tool.identity⟩ with
          | error e =>
              rw [hsearch] at hlive
              have hnone : ¬ IsVerified (tool.reconcile arguments) :=
                not_verified_of_unresolved hrequest fun ref hfound => by
                  rw [hlive] at hfound
                  cases hfound
              simp [hnone]
          | ok found =>
              rw [hsearch] at hlive
              replace hlive : tool.liveReference request =
                .ok (((soleMatch found).bind candidateReference).map ResourceRef.ofText) := hlive
              cases hone : (soleMatch found).bind candidateReference with
              | none =>
                  rw [hone] at hlive
                  have hnone : ¬ IsVerified (tool.reconcile arguments) :=
                    not_verified_of_unresolved hrequest fun ref hfound => by
                      rw [hlive] at hfound
                      cases hfound
                  refine ⟨fun hverified => absurd hverified hnone, ?_⟩
                  rintro ⟨read, reference, hread, hfinds, _⟩
                  cases hread
                  rw [findsOne_iff, hone] at hfinds
                  cases hfinds
              | some reference =>
                  rw [hone] at hlive
                  rw [verified_of_reference hrequest hlive (ResourceRef.ofText_value reference)]
                  refine ⟨fun hpresent => ⟨found, reference, rfl, findsOne_iff.mpr hone, hpresent⟩,
                    ?_⟩
                  rintro ⟨read, other, hread, hfinds, hpresent⟩
                  cases hread
                  rw [findsOne_iff, hone] at hfinds
                  cases hfinds
                  exact hpresent

end EditDocumentTool

namespace CreateDocumentTool

variable {tool : CreateDocumentTool} {arguments : List (String × Json)}

/-- The answer, written as the tool computes it. -/
theorem reconcile_verified_iff :
    IsVerified (tool.reconcile arguments) ↔
      ∃ request found candidate reference, tool.request arguments = some request ∧
        tool.service.search ⟨request.title, tool.identity⟩ = .ok found ∧
        Json.field? found "scope" = some (.str "managed_folder") ∧
        soleMatch found = some candidate ∧ candidateReference candidate = some reference ∧
        HasRequiredText tool.service tool.lib tool.identity arguments (.ofText reference) := by
  simp only [hasRequiredText_iff]
  constructor
  · rintro ⟨answer, hok, hverified⟩
    unfold reconcile at hok
    split at hok
    · cases hok
    · rename_i request hrequest
      obtain ⟨found, hsearch, hok⟩ := PyError.bind_eq_ok.mp hok
      split at hok
      · cases hok
        cases hverified
      · rename_i hscope
        split at hok
        · cases hok
          cases hverified
        · rename_i candidate hsole
          split at hok
          · cases hok
            cases hverified
          · rename_i reference hreference
            obtain ⟨inspected, hinspect, hok⟩ := PyError.bind_eq_ok.mp hok
            split at hok
            · cases hok
              cases hverified
            · rename_i required hrequired
              split at hok
              · rename_i hin
                exact ⟨request, found, candidate, reference, hrequest, hsearch,
                  Decidable.not_not.mp hscope, hsole, hreference, inspected, required, hinspect,
                  hrequired, hin⟩
              · cases hok
                cases hverified
  · rintro ⟨request, found, candidate, reference, hrequest, hsearch, hscope, hsole, hreference,
      inspected, required, hinspect, hrequired, hin⟩
    refine ⟨existing inspected candidate reference, ?_, rfl⟩
    unfold reconcile
    rw [hrequest]
    dsimp only
    rw [hsearch]
    change (if Json.field? found "scope" ≠ some (.str "managed_folder") then _ else _) = _
    rw [if_neg (Decidable.not_not.mpr hscope), hsole]
    dsimp only
    rw [hreference]
    dsimp only
    rw [hinspect, hrequired]
    change (if requiredIn required (liveContent tool.lib inspected) = true then _ else _) = _
    rw [if_pos hin]

theorem isVerified_iff :
    IsVerified (tool.reconcile arguments) ↔ tool.TwinExists arguments := by
  rw [reconcile_verified_iff]
  unfold TwinExists
  constructor
  · rintro ⟨request, found, candidate, reference, hrequest, hsearch, hscope, hsole, hreference,
      hpresent⟩
    exact ⟨request, found, reference, hrequest, hsearch, hscope,
      ⟨candidate, soleMatch_eq_some.mp hsole, hreference⟩, hpresent⟩
  · rintro ⟨request, found, reference, hrequest, hsearch, hscope, ⟨candidate, hmatches, hreference⟩,
      hpresent⟩
    exact ⟨request, found, candidate, reference, hrequest, hsearch, hscope,
      soleMatch_eq_some.mpr hmatches, hreference, hpresent⟩

end CreateDocumentTool

/-- A verified answer ends the recovery: the tool is not started again. -/
theorem Operations.afterReconcile_verified {attempt : Nat} {request : OperationRequest}
    {answer : Except PyError ToolReconciliation} (hverified : IsVerified answer) (j : Nat)
    (key : String) : .started j key ∉ (afterReconcile attempt request answer).1 := by
  obtain ⟨reconciliation, rfl, hstate⟩ := hverified
  unfold afterReconcile
  dsimp only
  rw [if_pos hstate]
  cases reconciliation.verification.resourceRefs with
  | nil => simp [finished]
  | cons ref rest => simp

/-- A verified answer to an interrupted edit or create proves that the write was applied exactly
where the texts were not there before it. -/
theorem reconcile_proves_effect_iff {Live : Type} (service : Live → DocumentService)
    (identity : Identity) (lib : TextLibrary) (arguments : List (String × Json))
    (effect : Live → Live) (before : Live) :
    (ProvesEffect (fun live => EditDocumentTool.reconcile ⟨service live, identity, lib⟩ arguments)
        effect before ↔
      ¬ EditDocumentTool.TextsArePresent ⟨service before, identity, lib⟩ arguments) ∧
    (ProvesEffect (fun live => CreateDocumentTool.reconcile ⟨service live, identity, lib⟩ arguments)
        effect before ↔
      ¬ CreateDocumentTool.TwinExists ⟨service before, identity, lib⟩ arguments) := by
  refine ⟨?_, ?_⟩
  · rw [provesEffect_iff, EditDocumentTool.isVerified_iff]
  · rw [provesEffect_iff, CreateDocumentTool.isVerified_iff]

section Examples

private def plainLibrary : TextLibrary where
  nfkc text := text
  casefold text := text
  sha256 text := text
  str value := Json.dumps {} value

/-- A drive with one document in the managed folder. -/
private def oneDocument (content : String) : DocumentService where
  search _ := .ok [("scope", .str "managed_folder"),
    ("matches", .arr [.obj [("token", .str "doxcn1")]])]
  inspect _ := .ok [("data", .obj [("content", .str content)])]

private def appendStatus : List (String × Json) :=
  [("resource", .str "doxcn1"), ("document_title", .null), ("command", .str "append"),
    ("content_xml", .str "<p>Done</p>"), ("pattern", .null), ("block_id", .null),
    ("change_summary", .str "append the status"), ("required_text", .arr [.str "Done"])]

private def createReport : List (String × Json) :=
  [("title", .str "Report"), ("content_xml", .str "<p>Done</p>"),
    ("required_text", .arr [.str "Done"])]

/-- The status stood in the document before the append, and the report was there before the create:
both writes are lost and reported as applied. -/
theorem lost_writes_verified :
    let edit (live : String) : EditDocumentTool := ⟨oneDocument live, .user, plainLibrary⟩
    let create (live : String) : CreateDocumentTool := ⟨oneDocument live, .user, plainLibrary⟩
    let effect (live : String) := live ++ "<p>Done</p>"
    let before := "<p>Done</p>"
    (edit before).validate appendStatus = none ∧ (create before).validate createReport = none ∧
      ¬ ProvesEffect (fun live => (edit live).reconcile appendStatus) effect before ∧
      ¬ ProvesEffect (fun live => (create live).reconcile createReport) effect before := by
  refine ⟨by decide +kernel, by decide +kernel, ?_, ?_⟩
  · rw [provesEffect_iff]
    decide +kernel
  · rw [provesEffect_iff]
    decide +kernel

end Examples

end Codex2Lark
