import Codex2Lark.Core.Json
import Mathlib.Data.List.Nodup
import Mathlib.Data.List.Forall2

/-!
Two equalities of JSON values: the one of JSON, where an object has no order, and Python's `==`, which
also takes booleans, integers and floats by their number. Both compare scalars by a key.
-/

namespace Codex2Lark.Json

/-- Induction over the values of arrays and objects. -/
theorem value_induction {P : Json → Prop}
    (scalar : ∀ value, (∀ items, value ≠ .arr items) → (∀ fields, value ≠ .obj fields) → P value)
    (arr : ∀ items, (∀ item ∈ items, P item) → P (.arr items))
    (obj : ∀ fields, (∀ field ∈ fields, P field.2) → P (.obj fields)) (value : Json) : P value := by
  match value with
  | .arr items =>
      refine arr items fun item hitem => ?_
      have hsize := List.sizeOf_lt_of_mem hitem
      exact value_induction scalar arr obj item
  | .obj fields =>
      refine obj fields fun field hfield => ?_
      have hsize := List.sizeOf_lt_of_mem hfield
      have hpair : sizeOf field = 1 + sizeOf field.1 + sizeOf field.2 := by
        cases field
        rfl
      exact value_induction scalar arr obj field.2
  | .null | .bool _ | .int _ | .float _ | .str _ => exact scalar _ (by simp) (by simp)
termination_by sizeOf value
decreasing_by
  · simp_wf
    omega
  · simp_wf
    omega

/-- What is neither an array nor an object. -/
inductive Scalar where
  | null
  | bool (value : Bool)
  | int (value : Int)
  | float (shown : String)
  | str (value : String)
deriving DecidableEq, Repr

def scalar? : Json → Option Scalar
  | .null => some .null
  | .bool value => some (.bool value)
  | .int value => some (.int value)
  | .float shown => some (.float shown)
  | .str value => some (.str value)
  | _ => none

/-- A scalar as `==` takes it; `NaN` equals nothing. -/
def number? : Json → Option Scalar
  | .null => some .null
  | .bool value => some (.int (if value then 1 else 0))
  | .int value => some (.int value)
  | .float shown =>
      match wholeFloat shown with
      | some value => some (.int value)
      | none => if shown = "NaN" then none else some (.float shown)
  | .str value => some (.str value)
  | _ => none

section Alike

variable (key : Json → Option Scalar)

mutual

/-- Scalars by their key, arrays item by item, objects by the values of their keys. -/
def alike : Json → Json → Bool
  | .arr items, .arr others => alikeItems items others
  | .obj fields, .obj others => fields.length = others.length && alikeFields fields others
  | a, b => (key a).isSome && key a = key b

def alikeItems : List Json → List Json → Bool
  | [], [] => true
  | item :: rest, other :: others => alike item other && alikeItems rest others
  | _, _ => false

def alikeFields : List (String × Json) → List (String × Json) → Bool
  | [], _ => true
  | (name, value) :: rest, others =>
      (match field? others name with
        | some other => alike value other
        | none => false) && alikeFields rest others

end

end Alike

/-- The same JSON value. -/
def identical : Json → Json → Bool := alike scalar?

mutual

/-- A value that JSON can write: no `NaN`, and no key twice in an object. -/
def isJson : Json → Bool
  | .float shown => shown ≠ "NaN"
  | .arr items => isJsonItems items
  | .obj fields => (fields.map Prod.fst).Nodup && isJsonFields fields
  | _ => true

def isJsonItems : List Json → Bool
  | [] => true
  | item :: rest => isJson item && isJsonItems rest

def isJsonFields : List (String × Json) → Bool
  | [] => true
  | (_, value) :: rest => isJson value && isJsonFields rest

end

theorem isJsonItems_iff {items : List Json} :
    isJsonItems items = true ↔ ∀ item ∈ items, isJson item = true := by
  induction items with
  | nil => simp [isJsonItems]
  | cons item rest ih => simp [isJsonItems, ih]

theorem isJsonFields_iff {fields : List (String × Json)} :
    isJsonFields fields = true ↔ ∀ field ∈ fields, isJson field.2 = true := by
  induction fields with
  | nil => simp [isJsonFields]
  | cons field rest ih =>
      obtain ⟨name, value⟩ := field
      simp [isJsonFields, ih]

theorem isJson_arr {items : List Json} :
    isJson (.arr items) = true ↔ ∀ item ∈ items, isJson item = true := by
  rw [isJson, isJsonItems_iff]

theorem isJson_obj {fields : List (String × Json)} :
    isJson (.obj fields) = true ↔
      (fields.map Prod.fst).Nodup ∧ ∀ field ∈ fields, isJson field.2 = true := by
  rw [isJson, Bool.and_eq_true, isJsonFields_iff, decide_eq_true_eq]

/-! ### Both equalities are equivalences -/

variable {key : Json → Option Scalar}

theorem alikeItems_iff {items others : List Json} :
    alikeItems key items others = true ↔
      List.Forall₂ (fun item other => alike key item other = true) items others := by
  induction items generalizing others with
  | nil =>
      cases others with
      | nil => simp [alikeItems]
      | cons other others => simp [alikeItems]
  | cons item rest ih =>
      cases others with
      | nil => simp [alikeItems]
      | cons other others => simp [alikeItems, ih]

theorem alikeFields_iff {fields others : List (String × Json)} :
    alikeFields key fields others = true ↔
      ∀ field ∈ fields, ∃ other, field? others field.1 = some other ∧
        alike key field.2 other = true := by
  induction fields with
  | nil => simp [alikeFields]
  | cons field rest ih =>
      obtain ⟨name, value⟩ := field
      rw [alikeFields, Bool.and_eq_true, ih, List.forall_mem_cons]
      refine and_congr_left fun _ => ?_
      cases hfound : field? others name with
      | none => simp
      | some other => simp

/-- With unique keys a field is what a lookup of its key finds. -/
theorem field?_iff {fields : List (String × Json)} (hkeys : (fields.map Prod.fst).Nodup)
    {name : String} {value : Json} : field? fields name = some value ↔ (name, value) ∈ fields := by
  unfold field?
  constructor
  · intro hfound
    obtain ⟨field, hfield, rfl⟩ := Option.map_eq_some_iff.mp hfound
    have hname : field.1 = name := by simpa using List.find?_some hfield
    rw [← hname]
    exact List.mem_of_find?_eq_some hfield
  · intro hmem
    cases hfound : fields.find? fun field => field.1 = name with
    | none =>
        have hother := List.find?_eq_none.mp hfound _ hmem
        simp at hother
    | some field =>
        have hname : field.1 = name := by simpa using List.find?_some hfound
        have hsame : field = (name, value) :=
          List.inj_on_of_nodup_map hkeys (List.mem_of_find?_eq_some hfound) hmem hname
        rw [hsame]
        rfl

theorem alike_scalar {a b : Json} (harr : ∀ items, a ≠ .arr items)
    (hobj : ∀ fields, a ≠ .obj fields) :
    alike key a b = ((key a).isSome && key a = key b) := by
  cases a with
  | arr items => exact absurd rfl (harr items)
  | obj fields => exact absurd rfl (hobj fields)
  | null | bool | int | float | str => rw [alike] <;> simp

/-- A key of the scalars, and of nothing else. -/
structure KeysScalars (key : Json → Option Scalar) : Prop where
  arr : ∀ items, key (.arr items) = none
  obj : ∀ fields, key (.obj fields) = none
  scalar : ∀ value, isJson value = true → (∀ items, value ≠ .arr items) →
    (∀ fields, value ≠ .obj fields) → (key value).isSome = true

variable (hkey : KeysScalars key)

include hkey in
theorem alike_arr_cases {items : List Json} {b : Json} (halike : alike key (.arr items) b = true) :
    ∃ others, b = .arr others ∧
      List.Forall₂ (fun item other => alike key item other = true) items others := by
  cases b with
  | arr others => exact ⟨others, rfl, alikeItems_iff.mp halike⟩
  | null | bool | int | float | str | obj => simp [alike, hkey.arr] at halike

include hkey in
theorem alike_obj_cases {fields : List (String × Json)} {b : Json}
    (halike : alike key (.obj fields) b = true) :
    ∃ others, b = .obj others ∧ fields.length = others.length ∧
      ∀ field ∈ fields, ∃ other, field? others field.1 = some other ∧
        alike key field.2 other = true := by
  cases b with
  | obj others =>
      rw [alike, Bool.and_eq_true, decide_eq_true_eq, alikeFields_iff] at halike
      exact ⟨others, rfl, halike⟩
  | null | bool | int | float | str | arr => simp [alike, hkey.obj] at halike

/-- As many keys, all of them found: the same keys. -/
theorem names_perm {fields others : List (String × Json)}
    (hkeys : (fields.map Prod.fst).Nodup) (hlength : fields.length = others.length)
    (hfound : ∀ field ∈ fields, ∃ other, field? others field.1 = some other ∧
      alike key field.2 other = true) :
    (fields.map Prod.fst).Perm (others.map Prod.fst) := by
  have hsub : (fields.map Prod.fst).Subperm (others.map Prod.fst) := by
    refine List.subperm_of_subset hkeys ?_
    intro name hname
    obtain ⟨field, hfield, rfl⟩ := List.mem_map.mp hname
    obtain ⟨other, hother, -⟩ := hfound field hfield
    obtain ⟨entry, hentry, -⟩ := Option.map_eq_some_iff.mp hother
    have hsame : entry.1 = field.1 := by simpa using List.find?_some hentry
    exact List.mem_map.mpr ⟨entry, List.mem_of_find?_eq_some hentry, hsame⟩
  exact hsub.perm_of_length_le (by simp [hlength])

include hkey in
theorem alike_refl (a : Json) (hjson : isJson a = true) : alike key a a = true := by
  induction a using value_induction with
  | scalar value harr hobj =>
      rw [alike_scalar harr hobj, hkey.scalar value hjson harr hobj]
      simp
  | arr items ih =>
      refine alikeItems_iff.mpr (List.forall₂_same.mpr ?_)
      intro item hitem
      exact ih item hitem (isJson_arr.mp hjson item hitem)
  | obj fields ih =>
      obtain ⟨hnames, hvalues⟩ := isJson_obj.mp hjson
      rw [alike, Bool.and_eq_true, alikeFields_iff]
      refine ⟨by simp, ?_⟩
      intro field hfield
      exact ⟨field.2, (field?_iff hnames).mpr hfield, ih field hfield (hvalues field hfield)⟩

include hkey in
theorem alike_symm (a : Json) : ∀ b, isJson a = true → isJson b = true → alike key a b = true →
    alike key b a = true := by
  induction a using value_induction with
  | scalar value harr hobj =>
      intro b _ _ halike
      rw [alike_scalar harr hobj, Bool.and_eq_true, decide_eq_true_eq] at halike
      obtain ⟨hsome, hsame⟩ := halike
      rw [hsame] at hsome
      have harr' : ∀ items, b ≠ .arr items := by
        rintro items rfl
        simp [hkey.arr] at hsome
      have hobj' : ∀ fields, b ≠ .obj fields := by
        rintro fields rfl
        simp [hkey.obj] at hsome
      rw [alike_scalar harr' hobj', hsome, hsame]
      simp
  | arr items ih =>
      intro b ha hb halike
      obtain ⟨others, rfl, hpairs⟩ := alike_arr_cases hkey halike
      refine alikeItems_iff.mpr (List.forall₂_iff_get.mpr ⟨hpairs.length_eq.symm, ?_⟩)
      intro i hi hj
      refine ih _ (List.get_mem _ _) _ (isJson_arr.mp ha _ (List.get_mem _ _))
        (isJson_arr.mp hb _ (List.get_mem _ _)) ?_
      exact (List.forall₂_iff_get.mp hpairs).2 i hj hi
  | obj fields ih =>
      intro b ha hb halike
      obtain ⟨others, rfl, hlength, hfound⟩ := alike_obj_cases hkey halike
      obtain ⟨hnames, hvalues⟩ := isJson_obj.mp ha
      obtain ⟨hnames', hvalues'⟩ := isJson_obj.mp hb
      rw [alike, Bool.and_eq_true, alikeFields_iff]
      refine ⟨by simp [hlength], ?_⟩
      intro other hother
      have hname : other.1 ∈ fields.map Prod.fst :=
        (names_perm hnames hlength hfound).mem_iff.mpr (List.mem_map_of_mem hother)
      obtain ⟨field, hfield, hsame⟩ := List.mem_map.mp hname
      obtain ⟨value, hvalue, halike⟩ := hfound field hfield
      have hvalue : value = other.2 := by
        rw [hsame, (field?_iff hnames').mpr hother] at hvalue
        exact (Option.some.inj hvalue).symm
      subst hvalue
      refine ⟨field.2, (field?_iff hnames).mpr (by rw [← hsame]; exact hfield), ?_⟩
      exact ih field hfield _ (hvalues field hfield) (hvalues' other hother) halike

include hkey in
theorem alike_trans (a : Json) : ∀ b c, isJson a = true → isJson b = true → isJson c = true →
    alike key a b = true → alike key b c = true → alike key a c = true := by
  induction a using value_induction with
  | scalar value harr hobj =>
      intro b c _ _ _ hab hbc
      rw [alike_scalar harr hobj, Bool.and_eq_true, decide_eq_true_eq] at hab ⊢
      obtain ⟨hsome, hsame⟩ := hab
      have harr' : ∀ items, b ≠ .arr items := by
        rintro items rfl
        simp [hsame, hkey.arr] at hsome
      have hobj' : ∀ fields, b ≠ .obj fields := by
        rintro fields rfl
        simp [hsame, hkey.obj] at hsome
      rw [alike_scalar harr' hobj', Bool.and_eq_true, decide_eq_true_eq] at hbc
      exact ⟨hsome, hsame.trans hbc.2⟩
  | arr items ih =>
      intro b c ha hb hc hab hbc
      obtain ⟨middle, rfl, hfirst⟩ := alike_arr_cases hkey hab
      obtain ⟨others, rfl, hsecond⟩ := alike_arr_cases hkey hbc
      refine alikeItems_iff.mpr (List.forall₂_iff_get.mpr
        ⟨hfirst.length_eq.trans hsecond.length_eq, ?_⟩)
      intro i hi hj
      have hmiddle : i < middle.length := hfirst.length_eq ▸ hi
      refine ih _ (List.get_mem _ _) (middle.get ⟨i, hmiddle⟩) _
        (isJson_arr.mp ha _ (List.get_mem _ _)) (isJson_arr.mp hb _ (List.get_mem _ _))
        (isJson_arr.mp hc _ (List.get_mem _ _)) ?_ ?_
      · exact (List.forall₂_iff_get.mp hfirst).2 i hi hmiddle
      · exact (List.forall₂_iff_get.mp hsecond).2 i hmiddle hj
  | obj fields ih =>
      intro b c ha hb hc hab hbc
      obtain ⟨middle, rfl, hlength, hfirst⟩ := alike_obj_cases hkey hab
      obtain ⟨others, rfl, hlength', hsecond⟩ := alike_obj_cases hkey hbc
      obtain ⟨hnames, hvalues⟩ := isJson_obj.mp ha
      obtain ⟨hnames', hvalues'⟩ := isJson_obj.mp hb
      obtain ⟨hnames'', hvalues''⟩ := isJson_obj.mp hc
      rw [alike, Bool.and_eq_true, alikeFields_iff]
      refine ⟨by simp [hlength, hlength'], ?_⟩
      intro field hfield
      obtain ⟨between, hbetween, halike⟩ := hfirst field hfield
      have hmem := (field?_iff hnames').mp hbetween
      obtain ⟨other, hother, halike'⟩ := hsecond _ hmem
      refine ⟨other, hother, ?_⟩
      exact ih field hfield between other (hvalues field hfield) (hvalues' _ hmem)
        (hvalues'' _ ((field?_iff hnames'').mp hother)) halike halike'

/-! ### The two keys -/

theorem keysScalars_scalar : KeysScalars scalar? where
  arr _ := rfl
  obj _ := rfl
  scalar value _ harr hobj := by
    cases value with
    | arr items => exact absurd rfl (harr items)
    | obj fields => exact absurd rfl (hobj fields)
    | null | bool | int | float | str => rfl

theorem keysScalars_number : KeysScalars number? where
  arr _ := rfl
  obj _ := rfl
  scalar value hjson harr hobj := by
    cases value with
    | arr items => exact absurd rfl (harr items)
    | obj fields => exact absurd rfl (hobj fields)
    | float shown =>
        have hnumber : shown ≠ "NaN" := by simpa [isJson] using hjson
        cases hwhole : wholeFloat shown with
        | some value => simp [number?, hwhole]
        | none => simp [number?, hwhole, hnumber]
    | null | bool | int | str => rfl

/-- Identical scalars have the same key whatever it is. -/
theorem scalar?_injective {a b : Json} {value : Scalar} (ha : scalar? a = some value)
    (hb : scalar? b = some value) : a = b := by
  cases a with
  | arr | obj => cases ha
  | null | bool | int | float | str =>
      cases ha
      cases b <;> simp_all [scalar?]

theorem number?_of_whole {value : Json} {n : Int} (hwhole : wholeNumber value = some n) :
    number? value = some (.int n) := by
  cases value with
  | bool | int =>
      cases hwhole
      rfl
  | float shown => simp [number?, show wholeFloat shown = some n from hwhole]
  | null | str | arr | obj => cases hwhole

theorem number?_float {shown : String} (hwhole : wholeFloat shown = none) :
    number? (.float shown) = if shown = "NaN" then none else some (.float shown) := by
  rw [number?, hwhole]

theorem number?_of_not_whole {value : Json} (hwhole : wholeNumber value = none) (n : Int) :
    number? value ≠ some (.int n) := by
  cases value with
  | bool | int => cases hwhole
  | float shown =>
      rw [number?_float hwhole]
      split <;> simp
  | null | str | arr | obj => simp [number?]

/-- Floats that are not whole are compared as they are printed. -/
theorem sameNumber_of_not_whole {a b : Json} (hdiffer : wholeNumber a = none ∨ wholeNumber b = none) :
    sameNumber a b = true ↔ ∃ shown, a = .float shown ∧ b = .float shown ∧ shown ≠ "NaN" := by
  unfold sameNumber
  split
  · rename_i m n hm hn
    rw [hm, hn] at hdiffer
    rcases hdiffer with hnone | hnone <;> cases hnone
  · split
    · rename_i x y _
      rw [Bool.and_eq_true, decide_eq_true_eq, decide_eq_true_eq]
      constructor
      · rintro ⟨rfl, hnumber⟩
        exact ⟨x, rfl, rfl, hnumber⟩
      · rintro ⟨shown, hx, hy, hnumber⟩
        cases hx
        cases hy
        exact ⟨rfl, hnumber⟩
    · rename_i hother
      refine iff_of_false Bool.false_ne_true ?_
      rintro ⟨shown, rfl, rfl, -⟩
      exact hother shown shown rfl rfl

/-- A number is compared by its key. -/
theorem sameNumber_iff {a b : Json} (hnull : a ≠ .null) (hstr : ∀ text, a ≠ .str text) :
    sameNumber a b = true ↔ (number? a).isSome = true ∧ number? a = number? b := by
  cases hm : wholeNumber a with
  | some m =>
      rw [number?_of_whole hm]
      cases hn : wholeNumber b with
      | some n => simp [sameNumber, hm, hn, number?_of_whole hn]
      | none =>
          rw [sameNumber_of_not_whole (.inr hn)]
          refine iff_of_false ?_ fun hkeys => number?_of_not_whole hn m hkeys.2.symm
          rintro ⟨shown, rfl, rfl, -⟩
          rw [hm] at hn
          cases hn
  | none =>
      rw [sameNumber_of_not_whole (.inl hm)]
      constructor
      · rintro ⟨shown, rfl, rfl, hnumber⟩
        rw [number?_float hm, if_neg hnumber]
        exact ⟨rfl, rfl⟩
      · rintro ⟨hsome, hkeys⟩
        cases a with
        | null => exact absurd rfl hnull
        | str text => exact absurd rfl (hstr text)
        | arr | obj => cases hsome
        | bool | int => cases hm
        | float shown =>
            have hwhole : wholeFloat shown = none := hm
            by_cases hnan : shown = "NaN"
            · rw [number?_float hwhole, if_pos hnan] at hsome
              cases hsome
            · have hb : number? b = some (.float shown) := by
                rw [← hkeys, number?_float hwhole, if_neg hnan]
              refine ⟨shown, rfl, ?_, hnan⟩
              cases b with
              | null | bool | int | str | arr | obj => cases hb
              | float other =>
                  cases hother : wholeFloat other with
                  | some n =>
                      rw [number?_of_whole (show wholeNumber (.float other) = some n from hother)] at hb
                      cases hb
                  | none =>
                      rw [number?_float hother] at hb
                      split at hb
                      · cases hb
                      · cases hb
                        rfl

/-- Python's `==` is the equality by `number?`. -/
theorem same_eq_alike (a : Json) : ∀ b, same a b = alike number? a b := by
  induction a using value_induction with
  | scalar value harr hobj =>
      intro b
      rw [alike_scalar harr hobj, Bool.eq_iff_iff, Bool.and_eq_true, decide_eq_true_eq]
      cases value with
      | arr items => exact absurd rfl (harr items)
      | obj fields => exact absurd rfl (hobj fields)
      | bool | int | float =>
          rw [← sameNumber_iff (by simp) (by simp)]
          rw [same] <;> simp
      | null =>
          cases b with
          | float shown =>
              cases hwhole : wholeFloat shown with
              | some n => simp [same, sameNumber, wholeNumber, number?, hwhole]
              | none =>
                  rw [number?_float hwhole]
                  split <;> simp [same, sameNumber, wholeNumber, number?]
          | null | bool | int | str | arr | obj => simp [same, sameNumber, wholeNumber, number?]
      | str text =>
          cases b with
          | float shown =>
              cases hwhole : wholeFloat shown with
              | some n => simp [same, sameNumber, wholeNumber, number?, hwhole]
              | none =>
                  rw [number?_float hwhole]
                  split <;> simp [same, sameNumber, wholeNumber, number?]
          | null | bool | int | str | arr | obj => simp [same, sameNumber, wholeNumber, number?]
  | arr items ih =>
      intro b
      cases b with
      | arr others =>
          show sameItems items others = alikeItems number? items others
          induction items generalizing others with
          | nil => cases others <;> rfl
          | cons item rest ihrest =>
              cases others with
              | nil => rfl
              | cons other others =>
                  rw [sameItems, alikeItems, ih item List.mem_cons_self,
                    ihrest (fun x hx => ih x (List.mem_cons_of_mem _ hx))]
      | null | bool | int | float | str | obj => simp [same, alike, sameNumber, wholeNumber, number?]
  | obj fields ih =>
      intro b
      cases b with
      | obj others =>
          rw [same, alike]
          congr 1
          induction fields with
          | nil => rfl
          | cons field rest ihrest =>
              obtain ⟨name, value⟩ := field
              rw [sameFields, alikeFields, ihrest fun x hx => ih x (List.mem_cons_of_mem _ hx)]
              cases field? others name with
              | none => rfl
              | some other => simp [ih (name, value) List.mem_cons_self other]
      | null | bool | int | float | str | arr => simp [same, alike, sameNumber, wholeNumber, number?]

/-! ### The equalities of JSON values -/

theorem identical_refl {a : Json} (ha : isJson a = true) : identical a a = true :=
  alike_refl keysScalars_scalar a ha

theorem identical_symm {a b : Json} (ha : isJson a = true) (hb : isJson b = true)
    (hab : identical a b = true) : identical b a = true :=
  alike_symm keysScalars_scalar a b ha hb hab

theorem identical_trans {a b c : Json} (ha : isJson a = true) (hb : isJson b = true)
    (hc : isJson c = true) (hab : identical a b = true) (hbc : identical b c = true) :
    identical a c = true :=
  alike_trans keysScalars_scalar a b c ha hb hc hab hbc

theorem same_symm {a b : Json} (ha : isJson a = true) (hb : isJson b = true)
    (hab : same a b = true) : same b a = true := by
  rw [same_eq_alike] at hab ⊢
  exact alike_symm keysScalars_number a b ha hb hab

theorem same_trans {a b c : Json} (ha : isJson a = true) (hb : isJson b = true)
    (hc : isJson c = true) (hab : same a b = true) (hbc : same b c = true) : same a c = true := by
  rw [same_eq_alike] at hab hbc ⊢
  exact alike_trans keysScalars_number a b c ha hb hc hab hbc

/-- Identical values are equal in Python. -/
theorem same_of_identical (a : Json) : ∀ b, isJson a = true → isJson b = true →
    identical a b = true → same a b = true := by
  simp only [same_eq_alike, identical]
  induction a using value_induction with
  | scalar value harr hobj =>
      intro b ha _ halike
      rw [alike_scalar harr hobj, Bool.and_eq_true, decide_eq_true_eq] at halike
      obtain ⟨hsome, hsame⟩ := halike
      obtain ⟨key, hkey⟩ := Option.isSome_iff_exists.mp hsome
      obtain rfl := scalar?_injective hkey (hsame ▸ hkey)
      exact alike_refl keysScalars_number value ha
  | arr items ih =>
      intro b ha hb halike
      obtain ⟨others, rfl, hpairs⟩ := alike_arr_cases keysScalars_scalar halike
      refine alikeItems_iff.mpr (List.forall₂_iff_get.mpr ⟨hpairs.length_eq, ?_⟩)
      intro i hi hj
      refine ih _ (List.get_mem _ _) _ (isJson_arr.mp ha _ (List.get_mem _ _))
        (isJson_arr.mp hb _ (List.get_mem _ _)) ?_
      exact (List.forall₂_iff_get.mp hpairs).2 i hi hj
  | obj fields ih =>
      intro b ha hb halike
      obtain ⟨others, rfl, hlength, hfound⟩ := alike_obj_cases keysScalars_scalar halike
      obtain ⟨-, hvalues⟩ := isJson_obj.mp ha
      obtain ⟨hnames', hvalues'⟩ := isJson_obj.mp hb
      rw [alike, Bool.and_eq_true, alikeFields_iff]
      refine ⟨by simp [hlength], ?_⟩
      intro field hfield
      obtain ⟨other, hother, halike⟩ := hfound field hfield
      have hmem := (field?_iff hnames').mp hother
      exact ⟨other, hother, ih field hfield other (hvalues field hfield) (hvalues' _ hmem) halike⟩

end Codex2Lark.Json
