import Codex2Lark.Lib.Runs
import Codex2Lark.Storage.KeyRotation

/-!
Key rotation over interrupted calls. Rewrapping keeps what an envelope decrypts to under the key
that it names, so it does not matter where a call stops; a call that comes to its end has found
every envelope under the new key.
-/

namespace Codex2Lark

open Lib EnvelopeCipher

/-! ### What a directory holds -/

structure PlainRow where
  key : RowKey
  values : CipherField → Option Bytes

structure PlainBlob where
  blobId : String
  content : Bytes

structure PlainDirectory where
  rows : List PlainRow
  blobs : List PlainBlob

namespace KeyRotation

variable (crypto : CryptoPrimitives) (keys : List MasterKey)

/-- Every envelope of the row decrypts, under the key that it names and the associated data of the
store that owns the row. -/
def RowHolds (row : EncryptedRow) (plain : PlainRow) : Prop :=
  row.key = plain.key ∧ ∀ field,
    ((row.envelopes field).map fun envelope =>
      decryptNamed crypto keys envelope (storeAad row.key field)) =
        (plain.values field).map .ok

def BlobHolds (blob : EncryptedBlob) (plain : PlainBlob) : Prop :=
  blob.blobId = plain.blobId ∧
    decryptNamed crypto keys blob.envelope (blobAad blob.blobId) = .ok plain.content

structure Holds (dir : EncryptedDirectory) (plain : PlainDirectory) : Prop where
  rows : List.Forall₂ (RowHolds crypto keys) dir.rows plain.rows
  blobs : List.Forall₂ (BlobHolds crypto keys) dir.blobs plain.blobs

end KeyRotation

/-- Whatever envelope the row has in the column names the key. -/
def EncryptedRow.UnderKey (keyId : String) (row : EncryptedRow) (field : CipherField) : Prop :=
  ∀ envelope, row.envelopes field = some envelope → envelope.keyId = keyId

namespace KeyRotation

variable {crypto : CryptoPrimitives} {current target : MasterKey} {dir : EncryptedDirectory}
  {row : EncryptedRow} {plain : PlainRow} {plains : PlainDirectory} {blobs : List EncryptedBlob}

/-! ### The specifications -/

/-- The rotation uses the associated data of the stores. -/
theorem specs_aad : ∀ spec ∈ specs, ∀ key : RowKey, key.table = spec.table →
    ∀ field ∈ spec.fields, spec.aad key field = storeAad key field := by
  unfold specs
  simp only [List.forall_mem_cons, List.not_mem_nil, false_imp_iff, implies_true, and_true]
  refine ⟨?_, ?_, ?_, ?_, ?_, ?_, ?_, ?_, ?_, ?_, ?_, ?_, ?_⟩ <;> intro key htable <;>
    cases key <;> cases htable
  case refine_7.node => exact ⟨rfl, rfl, rfl⟩
  case refine_9.artifact => exact ⟨rfl, rfl⟩
  case refine_12.message => exact ⟨rfl, rfl, rfl⟩
  case refine_13.attachment => exact ⟨rfl, rfl⟩
  all_goals rfl

/-- It misses no encrypted column of a table. -/
theorem specs_fields : ∀ spec ∈ specs, spec.fields = spec.table.columns := by
  unfold specs
  simp only [List.forall_mem_cons]
  refine ⟨rfl, rfl, rfl, rfl, rfl, rfl, rfl, rfl, rfl, rfl, rfl, rfl, rfl, ?_⟩
  intro spec hspec
  cases hspec

/-- It misses no table. -/
theorem specs_tables (table : CipherTable) : table ∈ specs.map EnvelopeSpec.table := by
  cases table <;> decide

/-! ### Rows -/

/-- One field of the row. -/
theorem RowHolds.envelope (hcrypto : crypto.Inverts) (hdiffer : current.keyId ≠ target.keyId)
    (hrow : RowHolds crypto [current, target] row plain) {field : CipherField}
    {envelope : Envelope} (henvelope : row.envelopes field = some envelope) (nonce : Bytes) :
    ∃ rewrapped, rewrap crypto current target nonce envelope (storeAad row.key field) =
        .ok rewrapped ∧ rewrapped.keyId = target.keyId ∧
      RowHolds crypto [current, target] (row.replace field rewrapped) plain := by
  obtain ⟨hkey, hfields⟩ := hrow
  have hthis := hfields field
  rw [henvelope, Option.map_some] at hthis
  obtain ⟨plaintext, hvalue, hreads⟩ := Option.map_eq_some_iff.mp hthis.symm
  obtain ⟨rewrapped, hrewrap, htarget⟩ := rewrap_ok hcrypto hdiffer hreads.symm nonce
  refine ⟨rewrapped, hrewrap, (decrypt_ok_iff.mp htarget).2.1, hkey, fun other => ?_⟩
  by_cases hother : other = field
  · subst hother
    have hnamed := (decryptNamed_pair hdiffer).mpr (.inr htarget)
    simp only [EncryptedRow.replace, if_true, henvelope, Option.map_some, hvalue, hnamed]
  · simp only [EncryptedRow.replace, if_neg hother]
    exact hfields other

theorem replace_underKey {keyId : String} {field other : CipherField} {envelope : Envelope}
    (hname : envelope.keyId = keyId) (hunder : row.UnderKey keyId other ∨ other = field) :
    (row.replace field envelope).UnderKey keyId other := by
  intro found hfound
  by_cases hother : other = field
  · simp only [EncryptedRow.replace, if_pos hother] at hfound
    obtain ⟨_, _, rfl⟩ := Option.map_eq_some_iff.mp hfound
    exact hname
  · simp only [EncryptedRow.replace, if_neg hother] at hfound
    exact hunder.resolve_right hother found hfound

/-- The loop over the fields. -/
theorem rewrapRow_ok (hcrypto : crypto.Inverts) (hdiffer : current.keyId ≠ target.keyId)
    (nonce : RowKey → CipherField → Bytes) {spec : EnvelopeSpec}
    (haad : ∀ field ∈ spec.fields, spec.aad plain.key field = storeAad plain.key field)
    (hrow : RowHolds crypto [current, target] row plain) :
    ∃ after, rewrapRow crypto current target spec nonce row = .ok after ∧
      RowHolds crypto [current, target] after plain ∧
      ∀ field, row.UnderKey target.keyId field ∨ field ∈ spec.fields →
        after.UnderKey target.keyId field := by
  obtain ⟨table, fields, aad⟩ := spec
  unfold rewrapRow
  dsimp only at haad ⊢
  induction fields generalizing row with
  | nil => exact ⟨row, rfl, hrow, fun field hunder => hunder.resolve_right List.not_mem_nil⟩
  | cons field fields ih =>
      have hrest := fun other hother => haad other (List.mem_cons_of_mem _ hother)
      rw [List.foldlM_cons]
      cases henvelope : row.envelopes field with
      | none =>
          obtain ⟨after, hafter, hholds, hunder⟩ := ih hrow hrest
          refine ⟨after, hafter, hholds, fun other hother => hunder other ?_⟩
          rcases hother with hunder | hmem
          · exact .inl hunder
          · rcases List.mem_cons.mp hmem with rfl | hmem
            · exact .inl fun found hfound => by rw [henvelope] at hfound; cases hfound
            · exact .inr hmem
      | some envelope =>
          obtain ⟨rewrapped, hrewrap, hname, hreplaced⟩ :=
            hrow.envelope hcrypto hdiffer henvelope (nonce row.key field)
          obtain ⟨after, hafter, hholds, hunder⟩ := ih hreplaced hrest
          have hsame : aad row.key field = storeAad row.key field := by
            rw [hrow.1]
            exact haad field List.mem_cons_self
          refine ⟨after, ?_, hholds, fun other hother => hunder other ?_⟩
          · dsimp only
            rw [hsame, hrewrap]
            exact hafter
          · rcases hother with hunder | hmem
            · exact .inl (replace_underKey hname (.inl hunder))
            · rcases List.mem_cons.mp hmem with rfl | hmem
              · exact .inl (replace_underKey hname (.inr rfl))
              · exact .inr hmem

/-! ### The transaction -/

/-- The row keeps what it holds, and is under the new key if its table has been rewrapped. -/
def Rewrapped (crypto : CryptoPrimitives) (current target : MasterKey) (done : List CipherTable)
    (row : EncryptedRow) (plain : PlainRow) : Prop :=
  RowHolds crypto [current, target] row plain ∧
    (row.key.table ∈ done → ∀ field, row.UnderKey target.keyId field)

theorem rewrapTable_ok (hcrypto : crypto.Inverts) (hdiffer : current.keyId ≠ target.keyId)
    (nonce : RowKey → CipherField → Bytes) {spec : EnvelopeSpec} (hspec : spec ∈ specs)
    {done : List CipherTable} {rows : List EncryptedRow} {plains : List PlainRow}
    (hrows : List.Forall₂ (Rewrapped crypto current target done) rows plains) :
    ∃ after, rewrapTable crypto current target spec nonce rows = .ok after ∧
      List.Forall₂ (Rewrapped crypto current target (spec.table :: done)) after plains := by
  refine Table.Forall₂.mapM_ok (fun row plain hrow => ?_) hrows
  obtain ⟨hholds, hdone⟩ := hrow
  by_cases htable : row.key.table = spec.table
  · rw [if_pos htable]
    obtain ⟨after, hafter, hkept, hunder⟩ := rewrapRow_ok hcrypto hdiffer nonce
      (fun field hfield => specs_aad spec hspec plain.key (hholds.1 ▸ htable) field hfield) hholds
    refine ⟨after, hafter, hkept, fun _ field => ?_⟩
    by_cases hfield : field ∈ spec.fields
    · exact hunder field (.inr hfield)
    · -- the row has nothing in a column that its table does not have
      have hnone : row.envelopes field = none := by
        refine row.schema field ?_
        rw [htable, ← specs_fields spec hspec]
        exact hfield
      exact hunder field (.inl fun envelope hfound => by rw [hnone] at hfound; cases hfound)
  · rw [if_neg htable]
    refine ⟨row, rfl, hholds, fun hmem => hdone ?_⟩
    exact (List.mem_cons.mp hmem).resolve_left htable

/-- The loop over the tables. -/
theorem rewrapTables_ok (hcrypto : crypto.Inverts) (hdiffer : current.keyId ≠ target.keyId)
    (nonce : RowKey → CipherField → Bytes) (todo : List EnvelopeSpec) (htodo : todo ⊆ specs)
    {done : List CipherTable} {rows : List EncryptedRow} {plains : List PlainRow}
    (hrows : List.Forall₂ (Rewrapped crypto current target done) rows plains) :
    ∃ after, todo.foldlM (fun rows spec => rewrapTable crypto current target spec nonce rows)
        rows = .ok after ∧
      List.Forall₂ (Rewrapped crypto current target ((todo.map EnvelopeSpec.table).reverse ++ done))
        after plains := by
  induction todo generalizing done rows with
  | nil => exact ⟨rows, rfl, hrows⟩
  | cons spec todo ih =>
      obtain ⟨between, hbetween, hkept⟩ :=
        rewrapTable_ok hcrypto hdiffer nonce (htodo List.mem_cons_self) hrows
      obtain ⟨after, hafter, hall⟩ := ih (fun _ h => htodo (List.mem_cons_of_mem _ h)) hkept
      refine ⟨after, ?_, ?_⟩
      · rw [List.foldlM_cons, hbetween]
        exact hafter
      · simpa using hall

theorem rotateDatabase_ok (hcrypto : crypto.Inverts) (hdiffer : current.keyId ≠ target.keyId)
    (nonce : RowKey → CipherField → Bytes) {rows : List EncryptedRow} {plains : List PlainRow}
    (hrows : List.Forall₂ (RowHolds crypto [current, target]) rows plains) :
    ∃ after, rotateDatabase crypto current target nonce rows = .ok after ∧
      List.Forall₂ (RowHolds crypto [current, target]) after plains ∧
      ∀ row ∈ after, ∀ field, row.UnderKey target.keyId field := by
  have hstart : List.Forall₂ (Rewrapped crypto current target []) rows plains :=
    hrows.imp fun _ _ hrow => ⟨hrow, fun hmem => absurd hmem List.not_mem_nil⟩
  obtain ⟨after, hafter, hall⟩ :=
    rewrapTables_ok hcrypto hdiffer nonce specs (List.Subset.refl _) hstart
  refine ⟨after, hafter, hall.imp fun _ _ hrow => hrow.1, fun row hmem => ?_⟩
  obtain ⟨plain, _, hrow⟩ := Table.Forall₂.of_mem_left hall hmem
  refine hrow.2 ?_
  rw [List.append_nil, List.mem_reverse]
  exact specs_tables row.key.table

/-! ### The files -/

theorem rotateBlob_ok (hcrypto : crypto.Inverts) (hdiffer : current.keyId ≠ target.keyId)
    (nonce : Bytes) (blobId : String) {plains : List PlainBlob}
    (hblobs : List.Forall₂ (BlobHolds crypto [current, target]) blobs plains)
    {remaining : List String}
    (hdone : ∀ blob ∈ blobs, blob.blobId ∈ blobId :: remaining ∨
      blob.envelope.keyId = target.keyId) :
    ∃ after, rotateBlob crypto current target blobId nonce blobs = .ok after ∧
      List.Forall₂ (BlobHolds crypto [current, target]) after plains ∧
      ∀ blob ∈ after, blob.blobId ∈ remaining ∨ blob.envelope.keyId = target.keyId := by
  have hboth : List.Forall₂ (fun blob plain => BlobHolds crypto [current, target] blob plain ∧
      (blob.blobId ∈ blobId :: remaining ∨ blob.envelope.keyId = target.keyId)) blobs plains :=
    Table.Forall₂.imp_of_mem (fun blob hmem _ hblob => ⟨hblob, hdone blob hmem⟩) hblobs
  have hmapped : ∃ after, rotateBlob crypto current target blobId nonce blobs = .ok after ∧
      List.Forall₂ (fun blob plain => BlobHolds crypto [current, target] blob plain ∧
        (blob.blobId ∈ remaining ∨ blob.envelope.keyId = target.keyId)) after plains := by
    refine Table.Forall₂.mapM_ok (fun blob plain hblob => ?_) hboth
    obtain ⟨⟨hid, hreads⟩, hnamed⟩ := hblob
    by_cases hthis : blob.blobId = blobId
    · rw [if_pos hthis]
      rw [hthis] at hreads
      obtain ⟨rewrapped, hrewrap, htarget⟩ := rewrap_ok hcrypto hdiffer hreads nonce
      refine ⟨{ blob with envelope := rewrapped }, ?_, ⟨hid, ?_⟩, .inr ?_⟩
      · rw [hrewrap]
        rfl
      · rw [hthis]
        exact (decryptNamed_pair hdiffer).mpr (.inr htarget)
      · exact (decrypt_ok_iff.mp htarget).2.1
    · rw [if_neg hthis]
      refine ⟨blob, rfl, ⟨hid, hreads⟩, hnamed.imp_left fun hmem => ?_⟩
      exact (List.mem_cons.mp hmem).resolve_left hthis
  obtain ⟨after, hafter, hall⟩ := hmapped
  refine ⟨after, hafter, hall.imp fun _ _ h => h.1, fun blob hmem => ?_⟩
  obtain ⟨_, _, hblob⟩ := Table.Forall₂.of_mem_left hall hmem
  exact hblob.2

/-! ### Under one key -/

/-- Every envelope names the key. -/
structure AllUnder (keyId : String) (dir : EncryptedDirectory) : Prop where
  rows : ∀ row ∈ dir.rows, ∀ field, row.UnderKey keyId field
  blobs : ∀ blob ∈ dir.blobs, blob.envelope.keyId = keyId

/-- What names the new key decrypts under it. -/
theorem decryptNamed_target (hdiffer : current.keyId ≠ target.keyId) {envelope : Envelope}
    (hname : envelope.keyId = target.keyId) (associatedData : Bytes) :
    decryptNamed crypto [target] envelope associatedData =
      decryptNamed crypto [current, target] envelope associatedData := by
  unfold decryptNamed
  rw [hname]
  simp [hdiffer]

theorem holds_target (hdiffer : current.keyId ≠ target.keyId)
    (hholds : Holds crypto [current, target] dir plains) (hunder : AllUnder target.keyId dir) :
    Holds crypto [target] dir plains := by
  refine ⟨?_, ?_⟩
  · refine Table.Forall₂.imp_of_mem (fun row hmem plain hrow => ⟨hrow.1, fun field => ?_⟩)
      hholds.rows
    rw [← hrow.2 field]
    cases henvelope : row.envelopes field with
    | none => rfl
    | some envelope =>
        have hname := hunder.rows row hmem field envelope henvelope
        exact congrArg some (decryptNamed_target hdiffer hname _)
  · refine Table.Forall₂.imp_of_mem (fun blob hmem plain hblob => ⟨hblob.1, ?_⟩) hholds.blobs
    rw [decryptNamed_target hdiffer (hunder.blobs blob hmem)]
    exact hblob.2

theorem rowsLeft_eq_false {keyId : String} :
    rowsLeft keyId dir = false ↔ ∀ row ∈ dir.rows, ∀ field, row.UnderKey keyId field := by
  unfold rowsLeft
  constructor
  · intro hnone row hmem field envelope hfound
    obtain ⟨spec, hspec, htable⟩ := List.mem_map.mp (specs_tables row.key.table)
    have hfield : field ∈ spec.fields := by
      by_contra hmissing
      rw [specs_fields spec hspec, htable] at hmissing
      rw [row.schema field hmissing] at hfound
      cases hfound
    have hspecs := List.any_eq_false.mp hnone spec hspec
    have hthis := List.any_eq_false.mp (Bool.eq_false_of_not_eq_true hspecs) row hmem
    rw [htable, decide_eq_true rfl, Bool.true_and] at hthis
    have hclear := List.any_eq_false.mp (Bool.eq_false_of_not_eq_true hthis) field hfield
    simpa [hfound] using hclear
  · intro hunder
    refine List.any_eq_false.mpr fun spec _ => ?_
    simp only [List.any_eq_true, Bool.and_eq_true, not_exists, not_and]
    intro row hmem _ field _ hother
    obtain ⟨envelope, hfound, hname⟩ := (Option.any_eq_true _ _).mp hother
    exact of_decide_eq_true hname (hunder row hmem field envelope hfound)

/-- The verification succeeds when everything is under the new key. -/
theorem verify_ok_iff {keyId : String} : verify keyId dir = .ok () ↔ AllUnder keyId dir := by
  have hblobs : blobsLeft keyId dir = false ↔ ∀ blob ∈ dir.blobs, blob.envelope.keyId = keyId := by
    unfold blobsLeft
    simp
  unfold verify
  constructor
  · intro hok
    split at hok
    · cases hok
    · rename_i hrows
      split at hok
      · cases hok
      · rename_i hfiles
        exact ⟨rowsLeft_eq_false.mp (Bool.eq_false_of_not_eq_true hrows),
          hblobs.mp (Bool.eq_false_of_not_eq_true hfiles)⟩
  · rintro ⟨hrows, hfiles⟩
    rw [rowsLeft_eq_false.mpr hrows, hblobs.mpr hfiles]
    rfl

/-! ### Runs -/

/-- A call of another rotation has not left its marker. -/
def OwnMarker (current target : MasterKey) (marker : Option MarkerFile) : Prop :=
  marker = none ∨ marker = some (.marker (expectedMarker current target))

/-- How far the call is. -/
def Reached (current target : MasterKey) (s : RotationState) : Prop :=
  match s.phase with
  | .stopped => True
  | .marking | .database => current.keyId ≠ target.keyId
  | .blobs _ _ remaining => current.keyId ≠ target.keyId ∧
      (∀ row ∈ s.dir.rows, ∀ field, row.UnderKey target.keyId field) ∧
      ∀ blob ∈ s.dir.blobs, blob.blobId ∈ remaining ∨ blob.envelope.keyId = target.keyId
  | .verifying _ _ | .unlinking _ _ =>
      current.keyId ≠ target.keyId ∧ AllUnder target.keyId s.dir
  | .ended (.ok _) =>
      current.keyId ≠ target.keyId ∧ AllUnder target.keyId s.dir ∧ s.dir.marker = none
  | .ended (.error _) => True

/-- The invariant of all calls. `Own` says that the two keys differ and that no other rotation has
left its marker; then no call fails. -/
structure Rotating (crypto : CryptoPrimitives) (current target : MasterKey)
    (plains : PlainDirectory) (Own : Prop) (s : RotationState) : Prop where
  holds : Holds crypto [current, target] s.dir plains
  reached : Reached current target s
  unfailing : Own → current.keyId ≠ target.keyId ∧ OwnMarker current target s.dir.marker ∧
    ∀ e, s.phase ≠ .ended (.error e)

variable {s t : RotationState} {Own : Prop}

theorem ensureMarker_own {marker : Option MarkerFile} (hown : OwnMarker current target marker) :
    ensureMarker current target marker = .ok (.marker (expectedMarker current target)) := by
  rcases hown with rfl | rfl
  · rfl
  · exact if_pos rfl

theorem Rotating.advance (hcrypto : crypto.Inverts)
    (hs : Rotating crypto current target plains Own s) {nonce : RowKey → CipherField → Bytes}
    {blobNonce : Bytes} (hstep : advance crypto current target nonce blobNonce s = some t) :
    Rotating crypto current target plains Own t := by
  obtain ⟨⟨hrows, hblobs⟩, hreached, hunfailing⟩ := hs
  obtain ⟨dir, phase⟩ := s
  unfold KeyRotation.advance at hstep
  cases phase with
  | stopped => cases hstep
  | ended result => cases hstep
  | marking =>
      dsimp only at hstep
      cases hmarker : ensureMarker current target dir.marker with
      | error e =>
          rw [hmarker] at hstep
          cases hstep
          refine ⟨⟨hrows, hblobs⟩, trivial, fun hown => ?_⟩
          rw [ensureMarker_own (hunfailing hown).2.1] at hmarker
          cases hmarker
      | ok marker =>
          rw [hmarker] at hstep
          cases hstep
          refine ⟨⟨hrows, hblobs⟩, hreached, fun hown => ⟨hreached, .inr ?_, nofun⟩⟩
          rw [ensureMarker_own (hunfailing hown).2.1] at hmarker
          cases hmarker
          rfl
  | database =>
      obtain ⟨after, hafter, hkept, hunder⟩ := rotateDatabase_ok hcrypto hreached nonce hrows
      dsimp only at hstep
      rw [hafter] at hstep
      cases hstep
      refine ⟨⟨hkept, hblobs⟩, ⟨hreached, hunder, fun blob hmem => .inl ?_⟩,
        fun hown => ⟨hreached, (hunfailing hown).2.1, nofun⟩⟩
      exact Sorted.mem_sorted.mpr (List.mem_map_of_mem hmem)
  | blobs databaseEnvelopes blobEnvelopes remaining =>
      obtain ⟨hdiffer, hunder, hdone⟩ := hreached
      cases remaining with
      | nil =>
          cases hstep
          exact ⟨⟨hrows, hblobs⟩, ⟨hdiffer, hunder, fun blob hmem =>
              (hdone blob hmem).resolve_left List.not_mem_nil⟩,
            fun hown => ⟨hdiffer, (hunfailing hown).2.1, nofun⟩⟩
      | cons blobId remaining =>
          obtain ⟨after, hafter, hkept, hnamed⟩ :=
            rotateBlob_ok hcrypto hdiffer blobNonce blobId hblobs hdone
          dsimp only at hstep
          rw [hafter] at hstep
          cases hstep
          exact ⟨⟨hrows, hkept⟩, ⟨hdiffer, hunder, hnamed⟩,
            fun hown => ⟨hdiffer, (hunfailing hown).2.1, nofun⟩⟩
  | verifying databaseEnvelopes blobEnvelopes =>
      dsimp only at hstep
      rw [verify_ok_iff.mpr hreached.2] at hstep
      cases hstep
      exact ⟨⟨hrows, hblobs⟩, hreached,
        fun hown => ⟨hreached.1, (hunfailing hown).2.1, nofun⟩⟩
  | unlinking databaseEnvelopes blobEnvelopes =>
      cases hstep
      exact ⟨⟨hrows, hblobs⟩, ⟨hreached.1, ⟨hreached.2.rows, hreached.2.blobs⟩, rfl⟩,
        fun _ => ⟨hreached.1, .inl rfl, nofun⟩⟩

/-- A call begins where none is underway. -/
theorem Rotating.call (hs : Rotating crypto current target plains Own s)
    (hstep : step crypto current target s .call = some t) :
    Rotating crypto current target plains Own t := by
  have hbegun : t = { s with phase := .ended (.error sameKey) } ∧ current.keyId = target.keyId ∨
      t = { s with phase := .marking } ∧ current.keyId ≠ target.keyId := by
    obtain ⟨dir, phase⟩ := s
    by_cases hsame : current.keyId = target.keyId
    · cases phase <;> simp [KeyRotation.step, hsame] at hstep <;> exact .inl ⟨hstep.symm, hsame⟩
    · cases phase <;> simp [KeyRotation.step, hsame] at hstep <;> exact .inr ⟨hstep.symm, hsame⟩
  rcases hbegun with ⟨rfl, hsame⟩ | ⟨rfl, hdiffer⟩
  · exact ⟨hs.holds, trivial, fun hown => absurd hsame (hs.unfailing hown).1⟩
  · exact ⟨hs.holds, hdiffer, fun hown => ⟨hdiffer, (hs.unfailing hown).2.1, nofun⟩⟩

theorem Rotating.step (hcrypto : crypto.Inverts)
    (hs : Rotating crypto current target plains Own s) (label : RotationLabel)
    (hstep : step crypto current target s label = some t) :
    Rotating crypto current target plains Own t := by
  cases label with
  | call => exact hs.call hstep
  | advance nonce blobNonce => exact hs.advance hcrypto hstep
  | interrupt =>
      have hstopped : t = { s with phase := .stopped } := by
        obtain ⟨dir, phase⟩ := s
        cases phase <;> simp [KeyRotation.step] at hstep <;> exact hstep.symm
      subst hstopped
      exact ⟨hs.holds, trivial, fun hown =>
        ⟨(hs.unfailing hown).1, (hs.unfailing hown).2.1, nofun⟩⟩

/-- Under the current key everything decrypts, whatever the other key is. -/
theorem holds_pair (hholds : Holds crypto [current] dir plains) :
    Holds crypto [current, target] dir plains := by
  have hpair {envelope : Envelope} {associatedData plaintext : Bytes}
      (hok : decryptNamed crypto [current] envelope associatedData = .ok plaintext) :
      decryptNamed crypto [current, target] envelope associatedData = .ok plaintext := by
    have hname := (decrypt_ok_iff.mp (decryptNamed_singleton.mp hok)).2.1
    unfold decryptNamed
    rw [hname]
    simpa using decryptNamed_singleton.mp hok
  refine ⟨?_, ?_⟩
  · refine hholds.rows.imp fun row plain hrow => ⟨hrow.1, fun field => ?_⟩
    have hthis := hrow.2 field
    cases henvelope : row.envelopes field with
    | none =>
        rw [henvelope] at hthis
        exact hthis
    | some envelope =>
        rw [henvelope, Option.map_some] at hthis
        obtain ⟨plaintext, hvalue, hreads⟩ := Option.map_eq_some_iff.mp hthis.symm
        rw [hvalue, Option.map_some, Option.map_some, hpair hreads.symm]
  · exact hholds.blobs.imp fun blob plain hblob => ⟨hblob.1, hpair hblob.2⟩

theorem Rotating.start (hholds : Holds crypto [current] dir plains)
    (hown : Own → current.keyId ≠ target.keyId ∧ OwnMarker current target dir.marker) :
    Rotating crypto current target plains Own ⟨dir, .stopped⟩ :=
  ⟨holds_pair hholds, trivial, fun h => ⟨(hown h).1, (hown h).2, nofun⟩⟩

/-- Whatever interrupts the calls, everything decrypts at every moment under the key that it names;
and when a call is through, everything decrypts under the new key and the marker is gone. -/
theorem rotation_keeps_contents (hcrypto : crypto.Inverts)
    (hholds : Holds crypto [current] dir plains) (labels : List RotationLabel) :
    Always (step crypto current target)
      (fun s => Holds crypto [current, target] s.dir plains ∧
        ∀ result, s.phase = .ended (.ok result) →
          Holds crypto [target] s.dir plains ∧ s.dir.marker = none)
      labels ⟨dir, .stopped⟩ := by
  have hstart : Rotating crypto current target plains False ⟨dir, .stopped⟩ :=
    Rotating.start hholds False.elim
  refine always_of_invariant (C := fun _ _ => True)
    (fun s label t hs _ hstep => hs.step hcrypto label hstep)
    (fun s hs => ⟨hs.holds, fun result hended => ?_⟩) hstart
    (along_of_forall (fun _ _ => trivial) labels _)
  have hreached := hs.reached
  unfold Reached at hreached
  rw [hended] at hreached
  exact ⟨holds_target hreached.1 hs.holds hreached.2.1, hreached.2.2⟩

private def keyOf (keyId : String) (byte : UInt8) (hnamed : keyId ≠ "") : MasterKey where
  keyId
  key := List.replicate 32 byte
  named := hnamed
  sized := List.length_replicate

private def oldKey : MasterKey := keyOf "key-1" 1 (by decide)

private def newKey : MasterKey := keyOf "key-2" 2 (by decide)

private def sealed (plaintext associatedData : Bytes) : Envelope :=
  EnvelopeCipher.encrypt .labelled oldKey ⟨[7], [8], [9]⟩ plaintext associatedData

private def sealedMessage : MessageKey := ⟨"tenant", "app", "message"⟩

/-- A message without sender name and mentions, and a blob. -/
private def sealedDirectory : EncryptedDirectory where
  rows :=
    [{ key := .message sealedMessage
       envelopes := fun field =>
        if field = .content then some (sealed (utf8 "hi") (messageIdentityAad sealedMessage "content"))
        else none
       schema := by
        intro field hfield
        refine if_neg fun hcontent => hfield ?_
        rw [hcontent]
        decide }]
  blobs := [⟨"00", sealed (utf8 "file") (blobAad "00")⟩]
  marker := none

private def sealedPlain : PlainDirectory where
  rows := [⟨.message sealedMessage, fun field => if field = .content then some (utf8 "hi") else none⟩]
  blobs := [⟨"00", utf8 "file"⟩]

private theorem sealed_holds : Holds .labelled [oldKey] sealedDirectory sealedPlain := by
  have hsealed (plaintext associatedData : Bytes) :
      decryptNamed .labelled [oldKey] (sealed plaintext associatedData) associatedData =
        .ok plaintext :=
    decryptNamed_singleton.mpr (decrypt_encrypt CryptoPrimitives.labelled_inverts _)
  refine ⟨.cons ⟨rfl, fun field => ?_⟩ .nil, .cons ⟨rfl, hsealed _ _⟩ .nil⟩
  by_cases hcontent : field = .content
  · subst hcontent
    exact congrArg some (hsealed _ _)
  · simp [hcontent]

private def nextStep : RotationLabel := .advance (fun _ _ => [10]) [11]

/-- Interrupted after the commit, and called again. -/
theorem rotation_keeps_sealed :
    Always (step .labelled oldKey newKey)
      (fun s => Holds .labelled [oldKey, newKey] s.dir sealedPlain ∧
        ∀ result, s.phase = .ended (.ok result) →
          Holds .labelled [newKey] s.dir sealedPlain ∧ s.dir.marker = none)
      ([.call, nextStep, nextStep, .interrupt, .call] ++ List.replicate 6 nextStep)
      ⟨sealedDirectory, .stopped⟩ :=
  rotation_keeps_contents CryptoPrimitives.labelled_inverts sealed_holds _

/-- No call fails, unless the keys have one name or another rotation has left its marker. -/
theorem rotation_never_fails (hcrypto : crypto.Inverts)
    (hdiffer : current.keyId ≠ target.keyId) (hmarker : OwnMarker current target dir.marker)
    (hholds : Holds crypto [current] dir plains) (labels : List RotationLabel) :
    Always (step crypto current target) (fun s => ∀ e, s.phase ≠ .ended (.error e))
      labels ⟨dir, .stopped⟩ := by
  have hstart : Rotating crypto current target plains True ⟨dir, .stopped⟩ :=
    Rotating.start hholds fun _ => ⟨hdiffer, hmarker⟩
  exact always_of_invariant (C := fun _ _ => True)
    (fun s label t hs _ hstep => hs.step hcrypto label hstep)
    (fun s hs => (hs.unfailing trivial).2.2) hstart
    (along_of_forall (fun _ _ => trivial) labels _)

end KeyRotation

end Codex2Lark
