import Codex2Lark.Core.JsonEquality
import Codex2Lark.Lib.Distinct
import Codex2Lark.Runtime.MultiAgent
import Mathlib.Data.List.Pairwise

/-!
`merge_artifacts`: the claims of all artifacts under each key. The values of a key are compared by
Python's `==`, which does not tell `True` from `1`.
-/

namespace Codex2Lark

open Lib Json Distinct

namespace MultiAgentSupervisor

structure ArtifactMerge where
  artifacts : List Artifact
  claims : Dict String Json
  conflicts : Dict String (List Json)
deriving Repr

/-- `artifact.payload.get("claims", {})`; what is no object is passed over. -/
def claimsOf (artifact : Artifact) : List (String × Json) :=
  match field? artifact.payload "claims" with
  | some (.obj fields) => fields
  | _ => []

/-- `claims_by_key.setdefault(key, []).append(value)`. -/
def addClaim (claimsByKey : Dict String (List Json)) (claim : String × Json) :
    Dict String (List Json) :=
  claimsByKey.set claim.1 (claimsByKey.getD claim.1 [] ++ [claim.2])

def claimsByKey (artifacts : List Artifact) : Dict String (List Json) :=
  artifacts.foldl (fun byKey artifact => (claimsOf artifact).foldl addClaim byKey) []

/-- `len(unique) == 1`. -/
def agreed : List Json → Option Json
  | [value] => some value
  | _ => none

def disputed : List Json → Option (List Json)
  | [_] => none
  | unique => some unique

def mergeArtifacts (artifacts : List Artifact) : ArtifactMerge :=
  let byKey := claimsByKey artifacts
  { artifacts
    claims := byKey.filterMap fun entry =>
      (agreed (distinct same entry.2)).map fun value => (entry.1, value)
    conflicts := byKey.filterMap fun entry =>
      (disputed (distinct same entry.2)).map fun unique => (entry.1, unique) }

/-! ### The values of a key -/

def allClaims (artifacts : List Artifact) : List (String × Json) := artifacts.flatMap claimsOf

/-- The values claimed under a key, in order. -/
def valuesOf (claims : List (String × Json)) (key : String) : List Json :=
  (claims.filter fun claim => claim.1 = key).map Prod.snd

theorem mem_valuesOf {claims : List (String × Json)} {key : String} {value : Json} :
    value ∈ valuesOf claims key ↔ (key, value) ∈ claims := by
  simp [valuesOf]

theorem claimsByKey_eq (artifacts : List Artifact) :
    claimsByKey artifacts = (allClaims artifacts).foldl addClaim [] := by
  rw [allClaims, List.foldl_flatMap]
  rfl

theorem get?_addClaims (claims : List (String × Json)) (key : String) :
    Dict.get? (claims.foldl addClaim []) key =
      if valuesOf claims key = [] then none else some (valuesOf claims key) := by
  induction claims using List.reverseRecOn with
  | nil => rfl
  | append_singleton claims claim ih =>
      rw [List.foldl_append, List.foldl_cons, List.foldl_nil, addClaim]
      by_cases hkey : claim.1 = key
      · have hvalues : valuesOf (claims ++ [claim]) key = valuesOf claims key ++ [claim.2] := by
          simp [valuesOf, hkey]
        subst hkey
        rw [Dict.get?_set_self, hvalues, if_neg (by simp), Dict.getD, ih]
        split
        · rename_i hnone
          rw [hnone]
          rfl
        · rfl
      · have hvalues : valuesOf (claims ++ [claim]) key = valuesOf claims key := by
          simp [valuesOf, hkey]
        rw [Dict.get?_set_ne _ _ (Ne.symm hkey), hvalues, ih]

theorem nodup_claimsByKey (artifacts : List Artifact) :
    ((claimsByKey artifacts).map Prod.fst).Nodup := by
  rw [claimsByKey_eq]
  induction allClaims artifacts using List.reverseRecOn with
  | nil => exact List.nodup_nil
  | append_singleton claims claim ih =>
      rw [List.foldl_append]
      exact Dict.nodup_set ih _ _

theorem get?_claimsByKey (artifacts : List Artifact) (key : String) :
    Dict.get? (claimsByKey artifacts) key =
      if valuesOf (allClaims artifacts) key = [] then none
      else some (valuesOf (allClaims artifacts) key) := by
  rw [claimsByKey_eq, get?_addClaims]

theorem get?_claims (artifacts : List Artifact) (key : String) :
    Dict.get? (mergeArtifacts artifacts).claims key =
      (Dict.get? (claimsByKey artifacts) key).bind fun values => agreed (distinct same values) :=
  Dict.get?_filterMap (nodup_claimsByKey artifacts) (fun values => agreed (distinct same values)) key

theorem get?_conflicts (artifacts : List Artifact) (key : String) :
    Dict.get? (mergeArtifacts artifacts).conflicts key =
      (Dict.get? (claimsByKey artifacts) key).bind fun values => disputed (distinct same values) :=
  Dict.get?_filterMap (nodup_claimsByKey artifacts) (fun values => disputed (distinct same values)) key

/-! ### What the merge promises -/

def Claimed (artifacts : List Artifact) (key : String) (value : Json) : Prop :=
  ∃ artifact ∈ artifacts, (key, value) ∈ claimsOf artifact

/-- The same values, in any order and number. -/
def SameValues (values others : List Json) : Prop :=
  (∀ value ∈ values, ∃ other ∈ others, identical value other = true) ∧
    ∀ other ∈ others, ∃ value ∈ values, identical other value = true

/-- The value is in the merge or among the conflicts. -/
def Shows (merge : ArtifactMerge) (key : String) (value : Json) : Prop :=
  (∃ merged, Dict.get? merge.claims key = some merged ∧ identical merged value = true) ∨
    ∃ values, Dict.get? merge.conflicts key = some values ∧
      ∃ other ∈ values, identical other value = true

structure MergesFaithfully (artifacts : List Artifact) : Prop where
  claims : ∀ other : List Artifact, other.Perm artifacts → ∀ key,
    Option.Rel (fun value value' => identical value value' = true)
      (Dict.get? (mergeArtifacts artifacts).claims key) (Dict.get? (mergeArtifacts other).claims key)
  conflicts : ∀ other : List Artifact, other.Perm artifacts → ∀ key,
    Option.Rel SameValues (Dict.get? (mergeArtifacts artifacts).conflicts key)
      (Dict.get? (mergeArtifacts other).conflicts key)
  merged : ∀ key, (Dict.get? (mergeArtifacts artifacts).claims key).isSome = true ↔
    (∃ value, Claimed artifacts key value) ∧ ∀ value value', Claimed artifacts key value →
      Claimed artifacts key value' → identical value value' = true
  shown : ∀ key value, Claimed artifacts key value → Shows (mergeArtifacts artifacts) key value

theorem claimed_iff {artifacts : List Artifact} {key : String} {value : Json} :
    Claimed artifacts key value ↔ value ∈ valuesOf (allClaims artifacts) key := by
  rw [mem_valuesOf, allClaims, List.mem_flatMap]
  rfl

/-- The claims of a JSON payload are JSON values. -/
theorem isJson_of_claimed {artifacts : List Artifact} {key : String} {value : Json}
    (hjson : ∀ artifact ∈ artifacts, isJson (.obj artifact.payload) = true)
    (hclaimed : Claimed artifacts key value) : isJson value = true := by
  obtain ⟨artifact, hartifact, hclaim⟩ := hclaimed
  obtain ⟨hkeys, hvalues⟩ := isJson_obj.mp (hjson artifact hartifact)
  unfold claimsOf at hclaim
  split at hclaim
  · rename_i fields hfields
    have hobject := hvalues _ ((field?_iff hkeys).mp hfields)
    exact (isJson_obj.mp hobject).2 _ hclaim
  · cases hclaim

/-! ### The distinct values of one key -/

theorem agreed_or_disputed (unique : List Json) :
    (∃ value, unique = [value] ∧ agreed unique = some value ∧ disputed unique = none) ∨
      agreed unique = none ∧ disputed unique = some unique := by
  match unique with
  | [value] => exact .inl ⟨value, rfl, rfl, rfl⟩
  | [] | _ :: _ :: _ => exact .inr ⟨rfl, rfl⟩

section Values

variable {values : List Json} (hjson : ∀ value ∈ values, isJson value = true)

/-- Values that Python takes for equal are the same JSON value. -/
def TellsApart (values : List Json) : Prop :=
  ∀ value ∈ values, ∀ other ∈ values, same value other = true → identical value other = true

include hjson in
theorem distinct_shows (htells : TellsApart values) {value : Json} (hvalue : value ∈ values) :
    ∃ kept ∈ distinct same values, identical kept value = true := by
  obtain ⟨kept, hkept, rfl | hsame⟩ := distinct_covers (hvalue : value ∈ values)
  · exact ⟨kept, hkept, identical_refl (hjson kept hvalue)⟩
  · exact ⟨kept, hkept, htells kept (mem_of_mem_distinct hkept) value hvalue hsame⟩

include hjson in
/-- One distinct value is left when all are the same. -/
theorem agreed_isSome_iff (htells : TellsApart values) (hsome : values ≠ []) :
    (agreed (distinct same values)).isSome = true ↔
      ∀ value ∈ values, ∀ other ∈ values, identical value other = true := by
  constructor
  · intro hagreed value hvalue other hother
    obtain ⟨kept, hkept, hleft⟩ := distinct_shows hjson htells hvalue
    obtain ⟨kept', hkept', hright⟩ := distinct_shows hjson htells hother
    have hone : ∃ only, distinct same values = [only] := by
      match hunique : distinct same values with
      | [only] => exact ⟨only, rfl⟩
      | [] | _ :: _ :: _ => rw [hunique] at hagreed; cases hagreed
    obtain ⟨only, honly⟩ := hone
    rw [honly, List.mem_singleton] at hkept hkept'
    rw [hkept] at hleft
    rw [hkept'] at hright
    have hmem : only ∈ values := mem_of_mem_distinct (by rw [honly]; exact List.mem_cons_self)
    exact identical_trans (hjson _ hvalue) (hjson _ hmem) (hjson _ hother)
      (identical_symm (hjson _ hmem) (hjson _ hvalue) hleft) hright
  · intro hall
    match hunique : distinct same values with
    | [only] => rfl
    | [] => exact absurd hunique (distinct_ne_nil hsome)
    | first :: second :: rest =>
        have hdiffer : same first second = false := by
          have hpairs : (distinct same values).Pairwise
              fun earlier later => same earlier later = false := pairwise_distinct values
          rw [hunique] at hpairs
          exact (List.pairwise_cons.mp hpairs).1 second List.mem_cons_self
        have hfirst : first ∈ values :=
          mem_of_mem_distinct (by rw [hunique]; exact List.mem_cons_self)
        have hsecond : second ∈ values :=
          mem_of_mem_distinct (by rw [hunique]; exact List.mem_cons_of_mem _ List.mem_cons_self)
        rw [same_of_identical first second (hjson _ hfirst) (hjson _ hsecond)
          (hall first hfirst second hsecond)] at hdiffer
        cases hdiffer

include hjson in
/-- Kept values that Python takes for equal are one. -/
theorem distinct_injective {first second : Json} (hfirst : first ∈ distinct same values)
    (hsecond : second ∈ distinct same values) (hsame : same first second = true) :
    first = second := by
  by_contra hdiffer
  have hpairs : (distinct same values).Pairwise
      fun a b => same a b = false ∧ same b a = false := by
    refine List.Pairwise.imp_of_mem ?_ (pairwise_distinct values)
    intro a b ha hb hne
    refine ⟨hne, Bool.eq_false_iff.mpr fun hback => ?_⟩
    rw [same_symm (hjson b (mem_of_mem_distinct hb)) (hjson a (mem_of_mem_distinct ha)) hback] at hne
    cases hne
  have hsymm : Std.Symm fun a b : Json => same a b = false ∧ same b a = false :=
    ⟨fun a b h => ⟨h.2, h.1⟩⟩
  have hapart := hpairs.forall hfirst hsecond hdiffer
  rw [hsame] at hapart
  cases hapart.1

/-- The order of the values decides at most which of several identical ones is merged. -/
theorem agreed_rel {others : List Json} (hjson : ∀ value ∈ values, isJson value = true)
    (htells : TellsApart values) (hsome : values ≠ []) (hperm : others.Perm values) :
    Option.Rel (fun value value' => identical value value' = true)
      (agreed (distinct same values)) (agreed (distinct same others)) := by
  have hjson' : ∀ value ∈ others, isJson value = true := fun v hv => hjson v (hperm.mem_iff.mp hv)
  have htells' : TellsApart others := fun v hv w hw =>
    htells v (hperm.mem_iff.mp hv) w (hperm.mem_iff.mp hw)
  have hsome' : others ≠ [] := fun hnil => hsome (hnil ▸ hperm).nil_eq.symm
  have hiff := agreed_isSome_iff hjson htells hsome
  have hiff' := agreed_isSome_iff hjson' htells' hsome'
  simp only [hperm.mem_iff] at hiff'
  rcases agreed_or_disputed (distinct same values) with ⟨value, hone, hagreed, -⟩ | ⟨hagreed, -⟩
  · have hall := hiff.mp (by rw [hagreed]; rfl)
    obtain ⟨value', hagreed'⟩ := Option.isSome_iff_exists.mp (hiff'.mpr hall)
    have hvalue : value ∈ values := mem_of_mem_distinct (by rw [hone]; exact List.mem_cons_self)
    have hvalue' : value' ∈ values := by
      rcases agreed_or_disputed (distinct same others) with ⟨only, hone', honly, -⟩ | ⟨hnone, -⟩
      · obtain rfl := Option.some.inj (honly.symm.trans hagreed')
        exact hperm.mem_iff.mp (mem_of_mem_distinct (by rw [hone']; exact List.mem_cons_self))
      · rw [hnone] at hagreed'
        cases hagreed'
    rw [hagreed, hagreed']
    exact .some (hall value hvalue value' hvalue')
  · have hnot : ¬ (agreed (distinct same others)).isSome = true := by
      rw [hiff', ← hiff, hagreed]
      exact Bool.false_ne_true
    rw [hagreed, Option.not_isSome_iff_eq_none.mp hnot]
    exact .none

theorem disputed_rel {others : List Json} (hjson : ∀ value ∈ values, isJson value = true)
    (htells : TellsApart values) (hsome : values ≠ []) (hperm : others.Perm values) :
    Option.Rel SameValues (disputed (distinct same values)) (disputed (distinct same others)) := by
  have hrel := agreed_rel hjson htells hsome hperm
  have hjson' : ∀ value ∈ others, isJson value = true := fun v hv => hjson v (hperm.mem_iff.mp hv)
  have htells' : TellsApart others := fun v hv w hw =>
    htells v (hperm.mem_iff.mp hv) w (hperm.mem_iff.mp hw)
  rcases agreed_or_disputed (distinct same values) with ⟨_, _, hagreed, hnone⟩ | ⟨hagreed, hvalues⟩
  · rcases agreed_or_disputed (distinct same others) with ⟨_, _, _, hnone'⟩ | ⟨hagreed', _⟩
    · rw [hnone, hnone']
      exact .none
    · rw [hagreed, hagreed'] at hrel
      cases hrel
  · rcases agreed_or_disputed (distinct same others) with ⟨_, _, hagreed', _⟩ | ⟨_, hothers⟩
    · rw [hagreed, hagreed'] at hrel
      cases hrel
    · rw [hvalues, hothers]
      refine .some ⟨?_, ?_⟩
      · intro value hvalue
        have hmem := mem_of_mem_distinct hvalue
        obtain ⟨kept, hkept, hsame⟩ := distinct_shows hjson' htells' (hperm.mem_iff.mpr hmem)
        exact ⟨kept, hkept, identical_symm (hjson' _ (mem_of_mem_distinct hkept)) (hjson _ hmem) hsame⟩
      · intro other hother
        have hmem := mem_of_mem_distinct hother
        obtain ⟨kept, hkept, hsame⟩ := distinct_shows hjson htells (hperm.mem_iff.mp hmem)
        exact ⟨kept, hkept, identical_symm (hjson _ (mem_of_mem_distinct hkept)) (hjson' _ hmem) hsame⟩

end Values

theorem valuesOf_perm {artifacts other : List Artifact} (hperm : other.Perm artifacts)
    (key : String) :
    (valuesOf (allClaims other) key).Perm (valuesOf (allClaims artifacts) key) :=
  ((hperm.flatMap_right claimsOf).filter _).map _

/-- What is shown of a key is among the distinct values of the key. -/
theorem shows_iff {artifacts : List Artifact} {key : String} {value : Json}
    (hvalues : valuesOf (allClaims artifacts) key ≠ []) :
    Shows (mergeArtifacts artifacts) key value ↔
      ∃ kept ∈ distinct same (valuesOf (allClaims artifacts) key), identical kept value = true := by
  unfold Shows
  rw [get?_claims, get?_conflicts, get?_claimsByKey, if_neg hvalues, Option.bind_some,
    Option.bind_some]
  rcases agreed_or_disputed (distinct same (valuesOf (allClaims artifacts) key)) with
    ⟨only, honly, hagreed, hdisputed⟩ | ⟨hagreed, hdisputed⟩
  · rw [hagreed, hdisputed, honly]
    simp
  · rw [hagreed, hdisputed]
    simp

/-- The merge keeps its promises exactly when no two values claimed under one key are equal in
Python without being the same JSON value. -/
theorem merge_artifacts_iff {artifacts : List Artifact}
    (hjson : ∀ artifact ∈ artifacts, isJson (.obj artifact.payload) = true) :
    MergesFaithfully artifacts ↔
      ∀ key value other, Claimed artifacts key value → Claimed artifacts key other →
        same value other = true → identical value other = true := by
  have hclaims : ∀ key, ∀ value ∈ valuesOf (allClaims artifacts) key, isJson value = true :=
    fun key value hvalue => isJson_of_claimed hjson (claimed_iff.mpr hvalue)
  constructor
  · intro hmerges key value other hvalue hother hsame
    have hsome : valuesOf (allClaims artifacts) key ≠ [] := List.ne_nil_of_mem (claimed_iff.mp hvalue)
    obtain ⟨kept, hkept, hleft⟩ := (shows_iff hsome).mp (hmerges.shown key value hvalue)
    obtain ⟨kept', hkept', hright⟩ := (shows_iff hsome).mp (hmerges.shown key other hother)
    have hv := isJson_of_claimed hjson hvalue
    have ho := isJson_of_claimed hjson hother
    have hk := hclaims key kept (mem_of_mem_distinct hkept)
    have hk' := hclaims key kept' (mem_of_mem_distinct hkept')
    -- the two representatives are equal in Python, so they are one
    have hone : kept = kept' := by
      refine distinct_injective (hclaims key) hkept hkept' ?_
      have hfirst := same_trans hk hv ho (same_of_identical kept value hk hv hleft) hsame
      have hsecond := same_symm hk' ho (same_of_identical kept' other hk' ho hright)
      exact same_trans hk ho hk' hfirst hsecond
    subst hone
    exact identical_trans hv hk ho (identical_symm hk hv hleft) hright
  · intro htells
    have hapart : ∀ key, TellsApart (valuesOf (allClaims artifacts) key) := by
      intro key value hvalue other hother
      exact htells key value other (claimed_iff.mpr hvalue) (claimed_iff.mpr hother)
    have hnil : ∀ {other : List Artifact}, other.Perm artifacts → ∀ key,
        valuesOf (allClaims other) key = [] ↔ valuesOf (allClaims artifacts) key = [] := by
      intro other hperm key
      rw [← List.length_eq_zero_iff, (valuesOf_perm hperm key).length_eq, List.length_eq_zero_iff]
    refine ⟨?_, ?_, ?_, ?_⟩
    · intro other hperm key
      rw [get?_claims, get?_claims, get?_claimsByKey, get?_claimsByKey]
      by_cases hnone : valuesOf (allClaims artifacts) key = []
      · rw [if_pos hnone, if_pos ((hnil hperm key).mpr hnone)]
        exact .none
      · rw [if_neg hnone, if_neg (mt (hnil hperm key).mp hnone)]
        exact agreed_rel (hclaims key) (hapart key) hnone (valuesOf_perm hperm key)
    · intro other hperm key
      rw [get?_conflicts, get?_conflicts, get?_claimsByKey, get?_claimsByKey]
      by_cases hnone : valuesOf (allClaims artifacts) key = []
      · rw [if_pos hnone, if_pos ((hnil hperm key).mpr hnone)]
        exact .none
      · rw [if_neg hnone, if_neg (mt (hnil hperm key).mp hnone)]
        exact disputed_rel (hclaims key) (hapart key) hnone (valuesOf_perm hperm key)
    · intro key
      simp only [claimed_iff]
      rw [get?_claims, get?_claimsByKey]
      by_cases hnone : valuesOf (allClaims artifacts) key = []
      · simp [hnone]
      · rw [if_neg hnone, Option.bind_some, agreed_isSome_iff (hclaims key) (hapart key) hnone]
        refine ⟨fun hall => ⟨List.exists_mem_of_ne_nil _ hnone, fun v w hv hw => hall v hv w hw⟩, ?_⟩
        rintro ⟨-, hall⟩ v hv w hw
        exact hall v w hv hw
    · intro key value hclaimed
      have hvalue := claimed_iff.mp hclaimed
      exact (shows_iff (List.ne_nil_of_mem hvalue)).mpr
        (distinct_shows (hclaims key) (hapart key) hvalue)

private def reportOf (artifactId : String) (claims : List (String × Json)) : Artifact :=
  ⟨artifactId, "graph", "node", "report", [("claims", .obj claims)], [], .verified⟩

/-- Two reports that agree on one key and not on another. -/
theorem merge_artifacts_texts :
    MergesFaithfully [reportOf "a" [("owner", .str "x"), ("state", .str "open")],
      reportOf "b" [("owner", .str "x"), ("state", .str "closed")]] := by
  refine (merge_artifacts_iff (by decide)).mpr ?_
  have htexts : ∀ key value, Claimed [reportOf "a" [("owner", .str "x"), ("state", .str "open")],
      reportOf "b" [("owner", .str "x"), ("state", .str "closed")]] key value →
        ∃ text, value = .str text := by
    rintro key value ⟨artifact, hartifact, hclaim⟩
    simp only [List.mem_cons, List.not_mem_nil, or_false] at hartifact
    rcases hartifact with rfl | rfl <;>
      · simp only [claimsOf, reportOf, field?, List.find?, decide_true, Option.map_some,
          List.mem_cons, Prod.mk.injEq, List.not_mem_nil, or_false] at hclaim
        rcases hclaim with ⟨-, rfl⟩ | ⟨-, rfl⟩ <;> exact ⟨_, rfl⟩
  intro key value other hvalue hother hsame
  obtain ⟨text, rfl⟩ := htexts key value hvalue
  obtain ⟨text', rfl⟩ := htexts key other hother
  have htext : text = text' := by simpa [same] using hsame
  rw [htext]
  exact identical_refl rfl

/-- One worker reports `true` and another `1`: there is no conflict, and the order decides. -/
theorem merge_loses_value :
    let first := reportOf "a" [("done", .bool true)]
    let second := reportOf "b" [("done", .int 1)]
    (mergeArtifacts [first, second]).claims = [("done", .bool true)] ∧
      (mergeArtifacts [second, first]).claims = [("done", .int 1)] ∧
      (mergeArtifacts [first, second]).conflicts = [] ∧ ¬ MergesFaithfully [first, second] := by
  intro first second
  refine ⟨by decide +kernel, by decide +kernel, by decide +kernel, ?_⟩
  intro hmerges
  rcases hmerges.shown "done" (.int 1) ⟨second, by simp, by decide +kernel⟩ with
    ⟨merged, hmerged, hidentical⟩ | ⟨values, hvalues, -⟩
  · have hfirst : merged = .bool true := by
      have hget : Dict.get? (mergeArtifacts [first, second]).claims "done" = some (.bool true) := by
        decide +kernel
      exact Option.some.inj (hmerged.symm.trans hget)
    subst hfirst
    revert hidentical
    decide
  · have hget : Dict.get? (mergeArtifacts [first, second]).conflicts "done" = none := by
      decide +kernel
    rw [hget] at hvalues
    cases hvalues

end MultiAgentSupervisor

end Codex2Lark
