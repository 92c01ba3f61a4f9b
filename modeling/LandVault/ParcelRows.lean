import LandVault.Concurrency
import LandVault.Identity.Principals
import LandVault.Registry.ParcelService
import LandVault.Rows
import LandVault.Spatial.SpatialService

/-!
# What is stored of parcels

Three columns of a parcel are checked before they are stored: its country, its number and
its size. The table has no constraint on them, apart from the width of the column of the
country, so what is stored is what the checks let through. Both checks let something
through: the pattern of country codes a newline at the end, which only the width of the
column keeps out, and the test of the size every special value that is not below zero.
-/

set_option autoImplicit false

namespace LandVault

open Identity Kernel Kernel.Audit Registry Spatial Library.Numerals Library.Programs
open Library.ReadCommitted Python

/-! ## Country codes and parcel numbers -/

/-- Two letters A to Z. -/
def isCountryCode (code : String) : Bool :=
  match code.toList with
  | [a, b] => matchesIso3166.isLetter a && matchesIso3166.isLetter b
  | _ => false

/-- Two letters A to Z and a newline. -/
def isTerminatedCode (code : String) : Bool :=
  match code.toList with
  | [a, b, '\n'] => matchesIso3166.isLetter a && matchesIso3166.isLetter b
  | _ => false

/-- `LV-`, two letters A to Z, `-`, and at least six digits. -/
def isParcelNumber (text : String) : Bool :=
  match text.toList with
  | 'L' :: 'V' :: '-' :: a :: b :: '-' :: digits =>
      matchesIso3166.isLetter a && matchesIso3166.isLetter b && 6 ≤ digits.length &&
        digits.all Char.isDigit
  | _ => false

/-- What the pattern matches. -/
theorem matchesIso3166_eq (code : String) :
    matchesIso3166 code = (isCountryCode code || isTerminatedCode code) := by
  unfold matchesIso3166 isCountryCode isTerminatedCode
  split <;> simp_all

theorem isTerminatedCode_length {code : String} (terminated : isTerminatedCode code = true) :
    code.length = 3 := by
  unfold isTerminatedCode at terminated
  split at terminated
  · rename_i letters
    rw [← String.length_toList, letters]
    rfl
  · cases terminated

/-- What the pattern matches and the column holds. -/
theorem isCountryCode_of_short {code : String} (matched : matchesIso3166 code = true)
    (short : code.length ≤ 2) : isCountryCode code = true := by
  rw [matchesIso3166_eq, Bool.or_eq_true] at matched
  refine matched.resolve_right fun terminated => ?_
  have long := isTerminatedCode_length terminated
  omega

theorem padded_length (width n : Nat) : width ≤ (padded width n).length := by
  simp only [padded, List.length_append, List.length_replicate]
  omega

theorem padded_digits (width n : Nat) : (padded width n).all Char.isDigit = true := by
  rw [List.all_eq_true]
  intro c member
  rcases List.mem_append.mp member with zero | digit
  · rw [(List.mem_replicate.mp zero).2]
    rfl
  · exact Nat.isDigit_of_mem_toDigits (by decide) (by decide) digit

theorem isParcelNumber_format {code : String} (valid : isCountryCode code = true) (value : Nat) :
    isParcelNumber (formatParcelNumber code value) = true := by
  unfold isCountryCode at valid
  split at valid
  · rename_i a b letters
    have text : (formatParcelNumber code value).toList =
        'L' :: 'V' :: '-' :: a :: b :: '-' :: padded 6 value := by
      simp [formatParcelNumber, String.toList_append, letters]
    unfold isParcelNumber
    rw [text]
    simp only [valid, padded_digits, Bool.and_true, Bool.true_and, decide_eq_true_eq]
    exact padded_length 6 value
  · cases valid

/-! ## Facts of parcels -/

/-- What is asked of the country codes, numbers and sizes that are stored. -/
structure ParcelRule where
  country : String → Prop
  number : String → Prop
  size : Option PyFloat → Prop
  country_of_code : ∀ code, isCountryCode code = true → country code
  number_of_format : ∀ number', isParcelNumber number' = true → number number'

/-- A parcel or a row of one has what is asked. -/
structure ParcelRule.Of (rule : ParcelRule) {P : Type} (parcel : ParcelOf P) : Prop where
  country : rule.country parcel.countryCode
  number : ∀ number ∈ parcel.parcelNumber, rule.number number
  size : rule.size parcel.sizeSqm

theorem mergeColumn_cases {C : Type} [DecidableEq C] (loaded new stored : C) :
    mergeColumn loaded new stored = stored ∨ mergeColumn loaded new stored = new := by
  unfold mergeColumn
  split
  · exact .inl rfl
  · exact .inr rfl

theorem mergeFloat_cases (loaded new stored : Option PyFloat) :
    mergeFloat loaded new stored = stored ∨ mergeFloat loaded new stored = new := by
  unfold mergeFloat
  split
  · exact .inl rfl
  · exact .inr rfl

/-- Each column of an UPDATE is of the row or of the record. -/
theorem ParcelRule.Of.merge {rule : ParcelRule} {loaded new stored : ParcelRecord}
    (has : rule.Of new) (had : rule.Of stored) : rule.Of (loaded.merge new stored) where
  country := had.country
  number := by
    intro number member
    have merged : (loaded.merge new stored).parcelNumber =
        mergeColumn loaded.parcelNumber new.parcelNumber stored.parcelNumber := rfl
    rw [merged] at member
    rcases mergeColumn_cases loaded.parcelNumber new.parcelNumber stored.parcelNumber with same | same
    · exact had.number number (same ▸ member)
    · exact has.number number (same ▸ member)
  size := by
    have merged : (loaded.merge new stored).sizeSqm =
        mergeFloat loaded.sizeSqm new.sizeSqm stored.sizeSqm := rfl
    rw [merged]
    rcases mergeFloat_cases loaded.sizeSqm new.sizeSqm stored.sizeSqm with same | same
    · rw [same]
      exact had.size
    · rw [same]
      exact has.size

/-- The rule for the rows of every class. -/
def ParcelRule.rows (rule : ParcelRule) : RowRule where
  row := fun
    | .parcel, row => rule.Of (P := UUID) row
    | _, _ => True
  counter := fun countryCode _ => rule.country countryCode
  merge := fun e _ _ _ _ has had => by
    cases e with
    | parcel => exact ParcelRule.Of.merge has had
    | _ => trivial
  assign := fun e _ _ has _ => by
    cases e with
    | parcel => exact has
    | _ => trivial

/-- The request gives no size that the check lets through and the rule does not. -/
def ParcelRule.Admits (rule : ParcelRule) : ParcelRequest → Prop
  | .create _ details => sizeNotPositive details.sizeSqm = false → rule.size details.sizeSqm
  | .update _ fields => sizeNotPositive fields.sizeSqm = false →
      ∀ size, .sizeSqm size ∈ fields.items → rule.size size
  | _ => True

/-- What a view shows. -/
structure ParcelRule.Shows (rule : ParcelRule) (view : ParcelView) : Prop where
  country : rule.country view.countryCode
  number : ∀ number ∈ view.parcelNumber, rule.number number
  size : rule.size view.sizeSqm

/-- What an answer shows. -/
def ParcelRule.Answers (rule : ParcelRule) : ParcelAnswer → Prop
  | .parcel view => rule.Shows view
  | .parcels views => ∀ view ∈ views, rule.Shows view

section Walk

variable {ι : Type} [DecidableEq ι] {rule : ParcelRule} {C : Choice Env → Prop} {index : ι}
  {platform : Platform} {ctx : ExecutionContext}

/-! ## Repositories -/

theorem ParcelRule.Of.parcel {record : ParcelRecord} (has : rule.Of record) :
    rule.Of (ParcelRecord.parcel record) :=
  ⟨has.country, has.number, has.size⟩

theorem ParcelRule.Of.view {parcel : Parcel} (has : rule.Of parcel) :
    rule.Shows (parcelView parcel) :=
  ⟨has.country, has.number, has.size⟩

theorem respects_getParcel (parcelId : String) :
    Respects rule.rows C index (fun found => ∀ parcel ∈ found, rule.Of parcel)
      (ParcelRepository.get parcelId) := by
  unfold ParcelRepository.get
  split
  · exact .ret (by simp)
  · refine (respects_get .parcel _).bind fun found has => .ret fun parcel member => ?_
    obtain ⟨record, present, rfl⟩ := Option.mem_map.mp member
    exact (has record present).parcel

theorem respects_addParcel {parcel : Parcel} (number : ∀ number ∈ parcel.parcelNumber, rule.number number)
    (size : rule.size parcel.sizeSqm) (country : rule.country parcel.countryCode) :
    Respects rule.rows C index (fun added => rule.Of added) (ParcelRepository.add parcel) := by
  refine Upkept.bind (N := fun row => parcel.toRecord = .ok row) (.ofExcept fun _ made => made)
    fun row made => ?_
  obtain ⟨createdBy, _, rfl⟩ := map_eq_ok made
  refine Upkept.bind (N := fun record : ParcelRecord => rule.Of record) ?_ fun record has =>
    .ret has.parcel
  exact respects_add .parcel fun v _ => ParcelRule.Of.mk country number size

theorem respects_updateParcel {parcel : Parcel} (has : rule.Of parcel) :
    Respects rule.rows C index (fun updated => rule.Of updated) (ParcelRepository.update parcel) := by
  refine (respects_get .parcel _).bind fun found had => ?_
  cases found with
  | none => exact .throw _
  | some record =>
      have had : rule.Of record := had record rfl
      refine Upkept.bind (N := fun new : ParcelRecord => rule.Of new) (.ofExcept fun new made => ?_)
        fun new has => ?_
      · obtain ⟨updatedBy, _, rfl⟩ := map_eq_ok made
        exact ⟨had.country, has.number, has.size⟩
      · exact (respects_flush .parcel had has).bind fun record has =>
          .ret (ParcelRule.Of.parcel has)

/-- The histories have no rows that anything is asked of. -/
theorem respects_recordHistory {A : Type} {history : ParcelHistoryRepository.History A}
    (innocent : ∀ row, rule.rows.OfWrite (history.insert row))
    (assertion : AssertionOf A String Timestamp) :
    Respects rule.rows C index (fun _ => True) (history.record assertion) := by
  refine Upkept.bind (N := fun _ => True) (.ofExcept fun _ _ => trivial) fun model _ => ?_
  refine respects_query fun v memo a w _ loaded ran => ?_
  dsimp only at ran
  split at ran
  · simp only [Except.ok.injEq, Effect.mk.injEq] at ran
    obtain ⟨rfl, _, rfl⟩ := ran
    refine ⟨loaded, ?_, trivial⟩
    rintro _ ⟨⟩
    exact innocent _
  · cases ran

theorem respects_latest {A : Type} (history : ParcelHistoryRepository.History A) (parcelId : UUID) :
    Respects rule.rows C index (fun _ => True) (history.latest parcelId) := by
  refine respects_query fun v memo a w _ loaded ran => ?_
  simp only [Except.ok.injEq, Effect.mk.injEq] at ran
  obtain ⟨rfl, _, rfl⟩ := ran
  exact ⟨RowRule.ofMemo_same loaded fun e => e.loaded_reads _ _, by simp, trivial⟩

/-- What the counter allocates is a parcel number. -/
theorem respects_allocate {country : String} (matched : matchesIso3166 country = true) :
    Respects rule.rows C index
      (fun number => isCountryCode country = true ∧ isParcelNumber number = true)
      (ParcelNumberAllocator.allocate country) := by
  refine respects_query fun v memo number w _ loaded ran => ?_
  dsimp only at ran
  split at ran
  · cases ran
  · rename_i short
    have valid := isCountryCode_of_short matched (not_lt.mp short)
    split at ran
    · cases ran
    · split at ran
      · simp only [Except.ok.injEq, Effect.mk.injEq] at ran
        obtain ⟨rfl, rfl, rfl⟩ := ran
        refine ⟨loaded, ?_, valid, isParcelNumber_format valid _⟩
        rintro _ ⟨⟩
        exact rule.country_of_code country valid
      · cases ran

/-! ## Parts of the service -/

theorem respects_auditPermit (action : String) (parcel : Parcel) (entryId : Option String)
    (payload : List (String × Detail)) :
    Respects rule.rows C index (fun _ => True)
      (auditPermit platform ctx action parcel entryId payload) :=
  (respects_audit _ _ _).bind fun _ _ => .ret trivial

theorem respects_assertHistory {A : Type} {history : ParcelHistoryRepository.History A}
    (innocent : ∀ row, rule.rows.OfWrite (history.insert row)) (parcel : Parcel) (asserted : A)
    (basis auditId : String) (supersedesId : Option UUID) :
    Respects rule.rows C index (fun _ => True)
      (assertHistory history ctx parcel asserted basis auditId supersedesId) :=
  (respects_choose _).bind fun _ _ => (respects_recordHistory innocent _).bind fun _ _ =>
    .ret trivial

theorem respects_loadInScope (parcelId : String) :
    Respects rule.rows C index (fun parcel => rule.Of parcel) (loadInScope ctx parcelId) := by
  refine (respects_getParcel parcelId).bind fun found has => ?_
  cases found with
  | none => exact .throw _
  | some parcel => exact .ite (fun _ => .ret (has parcel rfl)) fun _ => .throw _

theorem respects_authorizeMutation (parcel : Parcel) :
    Respects rule.rows C index (fun _ => True) (authorizeMutation platform ctx parcel) :=
  .ite (fun _ => .ret trivial) fun _ => (respects_audit _ _ _).bind fun _ _ => .throw _

theorem respects_orConflict {α : Type} {result : Except PyExc α} {Q : α → Prop}
    (holds : ∀ a, result = .ok a → Q a) : Respects rule.rows C index Q (Registry.orConflict result) := by
  unfold Registry.orConflict
  split
  · exact .ret (holds _ rfl)
  · exact .throw _
  · exact .throw _

theorem respects_resolveCountry (countryCode : Option String) :
    Respects rule.rows C index (fun country => matchesIso3166 country = true)
      (resolveCountry ctx countryCode) := by
  unfold resolveCountry
  dsimp only
  split
  · rename_i country _
    exact .ret country.valid
  · exact .throw _
  · exact .throw _

theorem respects_referenceIsValid (reference tenantId parcelId : String) :
    Respects rule.rows C index (fun _ => True)
      (RealGeometryAdapter.referenceIsValid reference tenantId parcelId) := by
  refine Upkept.bind (N := fun _ => True) (Upkept.handle ?_ fun e => ?_) fun found _ => ?_
  · refine Upkept.bind (N := fun _ => True) (.ofExcept fun _ _ => trivial) fun key _ => ?_
    exact (respects_get .geometry _).bind fun _ _ => .ret trivial
  · unfold RealGeometryAdapter.referenceIsValid.malformed
    split
    · exact .ret trivial
    · exact .throw _
  · cases found <;> exact .ret trivial

/-! ## The operations -/

theorem ParcelRule.innocent_ownership (row : AssertionOf (Option String) UUID Nat) :
    rule.rows.OfWrite (ParcelHistoryRepository.ownership.insert row) := trivial

theorem ParcelRule.innocent_status (row : AssertionOf ParcelStatus UUID Nat) :
    rule.rows.OfWrite (ParcelHistoryRepository.status.insert row) := trivial

theorem respects_recordCreated {parcel : Parcel} (has : rule.Of parcel)
    (ownershipAuditId : Option String) :
    Respects rule.rows C index rule.Shows
      (createParcel.recordCreated platform ctx parcel ownershipAuditId) := by
  refine (respects_choose _).bind fun createdAuditId _ => ?_
  refine (respects_assertHistory rule.innocent_status _ _ _ _ _).bind fun _ _ => ?_
  refine .ite (fun _ => ?_) fun _ => ?_
  · refine (respects_auditPermit _ _ _ _).bind fun _ _ => ?_
    exact (respects_auditPermit _ _ _ _).bind fun _ _ => .ret has.view
  · exact (respects_auditPermit _ _ _ _).bind fun _ _ => .ret has.view

theorem respects_createParcel (countryCode : Option String) {details : ParcelDetails}
    (admitted : sizeNotPositive details.sizeSqm = false → rule.size details.sizeSqm) :
    Respects rule.rows C index rule.Shows (createParcel platform ctx countryCode details) := by
  refine .ite (fun _ => .throw _) fun _ => ?_
  have resolves := @respects_resolveCountry ι _ rule C index ctx countryCode
  -- the country is not evaluated
  generalize resolveCountry ctx countryCode = resolving at resolves ⊢
  refine resolves.bind fun country matched => ?_
  refine .ite (fun _ => .throw _) fun positive => ?_
  have size := admitted (by simpa using positive)
  refine (respects_choose _).bind ?_
  rintro ⟨parcelId, now⟩ _
  refine (respects_allocate matched).bind ?_
  rintro number ⟨valid, format⟩
  refine (respects_choose _).bind fun now' _ => ?_
  refine Upkept.bind (N := fun parcel : Parcel => rule.Of parcel) (.ofExcept fun parcel made => ?_)
    fun parcel has => ?_
  · obtain ⟨_, made⟩ := Parcel.ensureMutable_ok made
    split at made
    · cases made
    · cases made
      refine ⟨rule.country_of_code country valid, ?_, size⟩
      rintro _ ⟨⟩
      exact rule.number_of_format number format
  refine (respects_addParcel has.number has.size has.country).bind fun parcel has => ?_
  split
  · exact respects_recordCreated has none
  · refine (respects_choose _).bind fun auditId _ => ?_
    refine (respects_assertHistory rule.innocent_ownership _ _ _ _ _).bind fun _ _ => ?_
    exact respects_recordCreated has _

theorem setField_of {parcel : Parcel} (has : rule.Of parcel) {update : FieldUpdate}
    (size : ∀ size, update = .sizeSqm size → rule.size size) :
    rule.Of (parcel.setField update) := by
  cases update with
  | text field value => cases field <;> exact ⟨has.country, has.number, has.size⟩
  | sizeSqm value => exact ⟨has.country, has.number, size value rfl⟩
  | other key unknown => exact has

theorem setFields_of {parcel : Parcel} (has : rule.Of parcel) {updates : List FieldUpdate}
    (sizes : ∀ size, .sizeSqm size ∈ updates → rule.size size) :
    rule.Of (updates.foldl Parcel.setField parcel) := by
  induction updates generalizing parcel with
  | nil => exact has
  | cons update updates ih =>
      refine ih (setField_of has ?_) fun size member => sizes size (List.mem_cons_of_mem _ member)
      rintro size rfl
      exact sizes size List.mem_cons_self

theorem respects_recordChangedOwnership (parcel : Parcel) :
    Respects rule.rows C index (fun _ => True) (recordChangedOwnership platform ctx parcel) := by
  refine (respects_latest ParcelHistoryRepository.ownership _).bind fun prior _ => ?_
  refine (respects_choose _).bind fun auditId _ => ?_
  refine (respects_assertHistory rule.innocent_ownership _ _ _ _ _).bind fun _ _ => ?_
  exact respects_auditPermit _ _ _ _

theorem respects_updateDetails (parcelId : String) {fields : FieldMap}
    (admitted : sizeNotPositive fields.sizeSqm = false →
      ∀ size, .sizeSqm size ∈ fields.items → rule.size size) :
    Respects rule.rows C index rule.Shows (Registry.updateParcel platform ctx parcelId fields) := by
  refine .ite (fun _ => .throw _) fun _ => .ite (fun _ => .throw _) fun positive => ?_
  have sizes := admitted (by simpa using positive)
  refine (respects_loadInScope parcelId).bind fun parcel has => ?_
  refine (respects_authorizeMutation parcel).bind fun _ _ => ?_
  refine (respects_choose _).bind fun now _ => ?_
  refine Upkept.bind (N := fun updated : Parcel => rule.Of updated)
    (respects_orConflict fun updated made => ?_) fun updated has => ?_
  · obtain ⟨_, made⟩ := Parcel.ensureMutable_ok made
    split at made
    · cases made
    · cases made
      obtain ⟨country, number, size⟩ := setFields_of has sizes
      exact ⟨country, number, size⟩
  refine (respects_updateParcel has).bind fun updated has => ?_
  refine .ite (fun _ => ?_) fun _ => ?_
  · refine (respects_recordChangedOwnership updated).bind fun _ _ => ?_
    exact (respects_auditPermit _ _ _ _).bind fun _ _ => .ret has.view
  · exact (respects_auditPermit _ _ _ _).bind fun _ _ => .ret has.view

theorem respects_archiveParcel (parcelId : String) :
    Respects rule.rows C index rule.Shows (archiveParcel platform ctx parcelId) := by
  refine (respects_loadInScope parcelId).bind fun parcel has => ?_
  refine (respects_authorizeMutation parcel).bind fun _ _ => ?_
  refine (respects_choose _).bind fun now _ => ?_
  refine Upkept.bind (N := fun archived : Parcel => rule.Of archived)
    (respects_orConflict fun archived made => ?_) fun archived has => ?_
  · obtain ⟨_, made⟩ := Parcel.ensureMutable_ok made
    cases made
    exact ⟨has.country, has.number, has.size⟩
  refine (respects_updateParcel has).bind fun archived has => ?_
  refine (respects_latest ParcelHistoryRepository.status _).bind fun prior _ => ?_
  refine (respects_choose _).bind fun auditId _ => ?_
  refine (respects_assertHistory rule.innocent_status _ _ _ _ _).bind fun _ _ => ?_
  refine (respects_auditPermit _ _ _ _).bind fun _ _ => ?_
  exact (respects_auditPermit _ _ _ _).bind fun _ _ => .ret has.view

theorem respects_setGeometryReference (parcelId : String) (reference : Option String) :
    Respects rule.rows C index rule.Shows
      (Registry.setGeometryReference RealGeometryAdapter.referenceIsValid platform ctx parcelId
        reference) := by
  refine (respects_loadInScope parcelId).bind fun parcel has => ?_
  refine (respects_authorizeMutation parcel).bind fun _ _ => ?_
  refine Upkept.bind (N := fun _ => True) ?_ fun _ _ => ?_
  · cases reference with
    | none => exact .ret trivial
    | some text =>
        exact (respects_referenceIsValid _ _ _).bind fun _ _ =>
          .ite (fun _ => .throw _) fun _ => .ret trivial
  refine (respects_choose _).bind fun now _ => ?_
  refine Upkept.bind (N := fun referring : Parcel => rule.Of referring)
    (respects_orConflict fun referring made => ?_) fun referring has => ?_
  · obtain ⟨_, made⟩ := Parcel.ensureMutable_ok made
    cases made
    exact ⟨has.country, has.number, has.size⟩
  refine (respects_updateParcel has).bind fun referring has => ?_
  exact (respects_auditPermit _ _ _ _).bind fun _ _ => .ret has.view

theorem respects_listParcels :
    Respects rule.rows C index (fun views => ∀ view ∈ views, rule.Shows view) (listParcels ctx) := by
  refine .ite (fun _ => .ret (by simp)) fun _ => ?_
  refine Upkept.bind (N := fun parcels : List Parcel => ∀ parcel ∈ parcels, rule.Of parcel) ?_
    fun parcels has => .ret ?_
  · refine (respects_select .parcel _).bind fun records has => .ret fun parcel member => ?_
    obtain ⟨record, listed, rfl⟩ := List.mem_map.mp member
    have found := (List.perm_insertionSort _ records).mem_iff.mp listed
    exact (has record found).parcel
  · intro view member
    obtain ⟨parcel, listed, rfl⟩ := List.mem_map.mp member
    exact (has parcel listed).view

/-- **Every request about parcels keeps the rule** whose sizes it admits. -/
theorem respects_parcelRequest {request : ParcelRequest} (admitted : rule.Admits request) :
    Respects rule.rows C index rule.Answers
      (request.serve RealGeometryAdapter.referenceIsValid platform ctx) := by
  cases request with
  | create countryCode details =>
      exact (respects_createParcel countryCode admitted).bind fun _ shows => .ret shows
  | get parcelId =>
      refine Upkept.bind (N := rule.Shows) ?_ fun _ shows => .ret shows
      exact (respects_loadInScope parcelId).bind fun _ has => .ret has.view
  | list => exact respects_listParcels.bind fun _ shows => .ret shows
  | update parcelId fields =>
      exact (respects_updateDetails parcelId admitted).bind fun _ shows => .ret shows
  | archive parcelId => exact (respects_archiveParcel parcelId).bind fun _ shows => .ret shows
  | setGeometryReference parcelId reference =>
      exact (respects_setGeometryReference parcelId reference).bind fun _ shows => .ret shows

end Walk

/-! ## Any number of requests in any order -/

/-- Any number of requests about parcels, about to start. -/
def parcelWorld {ι : Type} (platform : Platform) (tables : Tables) (ctx : ι → ExecutionContext)
    (requests : ι → ParcelRequest) :
    World ι DbStatement PyExc ParcelAnswer (Database ι) DbSession :=
  World.start { tables } freshSession fun index =>
    getDbSession (ctx index)
      ((requests index).serve RealGeometryAdapter.referenceIsValid platform (ctx index))

/-- Where the requests are admitted, every reachable state keeps the rule. -/
theorem ParcelRule.reaches {rule : ParcelRule} {ι : Type} [DecidableEq ι] {platform : Platform}
    {tables : Tables} (holds : rule.rows.OfTables tables) {ctx : ι → ExecutionContext}
    {requests : ι → ParcelRequest} (admitted : ∀ index, rule.Admits (requests index))
    {w : World ι DbStatement PyExc ParcelAnswer (Database ι) DbSession}
    (reaches : World.Reaches (postgres ι) (parcelWorld platform tables ctx requests) w) :
    rule.rows.OfTables w.db.tables ∧
      ∀ index answer, (w.task index).answer = some (.ok answer) → rule.Answers answer :=
  Upkept.reaches (U := rule.rows.upkeep) (Q := fun _ => rule.Answers) holds
    (fun index => respects_getDbSession (ctx index) (respects_parcelRequest (admitted index)))
    reaches

/-! ## Sizes -/

/-- None, or a finite number above zero. -/
def isRealSize : Option PyFloat → Bool
  | none => true
  | some (.finite value) => 0 < value
  | some _ => false

/-- What `json.dumps` with `allow_nan=False` has a text for. -/
def PyFloat.inJson : PyFloat → Bool
  | .finite _ => true
  | _ => false

/-- Whether an answer can be written as JSON: everything but a size always can. -/
def Registry.ParcelAnswer.inJson : ParcelAnswer → Bool
  | .parcel view => view.sizeSqm.all PyFloat.inJson
  | .parcels views => views.all fun view => view.sizeSqm.all PyFloat.inJson

/-- Neither not-a-number nor infinity. -/
def isPlainSize (size : Option PyFloat) : Bool :=
  size.all fun size => size ≠ .nan && size ≠ .infinite false

/-- The size that a request gives, if it gives one. -/
def Registry.ParcelRequest.sizeSqm : ParcelRequest → Option PyFloat
  | .create _ details => details.sizeSqm
  | .update _ fields => fields.sizeSqm
  | _ => none

/-- What the check lets through of plain sizes. -/
theorem isRealSize_of_plain {size : Option PyFloat} (plain : isPlainSize size = true)
    (positive : sizeNotPositive size = false) : isRealSize size = true := by
  cases size with
  | none => rfl
  | some size =>
      cases size with
      | finite value => simpa [sizeNotPositive, PyFloat.leZero, isRealSize] using positive
      | nan => simp [isPlainSize] at plain
      | infinite negative =>
          cases negative with
          | true => simp [sizeNotPositive, PyFloat.leZero] at positive
          | false => simp [isPlainSize] at plain

theorem inJson_of_real {size : Option PyFloat} (real : isRealSize size = true) :
    size.all PyFloat.inJson = true := by
  cases size with
  | none => rfl
  | some size => cases size <;> simp_all [isRealSize, PyFloat.inJson]

/-- A dict has one value for `size_sqm`. -/
theorem Registry.FieldMap.sizeSqm_of_mem {fields : FieldMap} {size : Option PyFloat}
    (member : .sizeSqm size ∈ fields.items) : fields.sizeSqm = size := by
  obtain ⟨items, distinct⟩ := fields
  simp only [FieldMap.sizeSqm] at member ⊢
  induction items with
  | nil => cases member
  | cons item items ih =>
      obtain ⟨fresh, rest⟩ := List.nodup_cons.mp distinct
      rcases List.mem_cons.mp member with rfl | later
      · rfl
      · have other : item.key ≠ "size_sqm" := by
          intro same
          exact fresh (same ▸ List.mem_map_of_mem later)
        cases item with
        | sizeSqm value => exact absurd rfl other
        | text field value => exact ih rest later
        | other key unknown => exact ih rest later

/-- Sizes are real; nothing is asked of countries and numbers. -/
def realSizes : ParcelRule where
  country := fun _ => True
  number := fun _ => True
  size := fun size => isRealSize size = true
  country_of_code := fun _ _ => trivial
  number_of_format := fun _ _ => trivial

theorem realSizes_admits {request : ParcelRequest} (plain : isPlainSize request.sizeSqm = true) :
    realSizes.Admits request := by
  cases request with
  | create countryCode details => exact isRealSize_of_plain plain
  | update parcelId fields =>
      intro positive size member
      have same := FieldMap.sizeSqm_of_mem member
      exact same ▸ isRealSize_of_plain plain positive
  | get | list | archive | setGeometryReference => trivial

/-- **Stored sizes are real where no request gives a special value** that is not below zero:
in every run of such requests every stored parcel has no size or a finite one above zero,
and every answer can be written as JSON. -/
theorem parcel_sizes_real {ι : Type} [DecidableEq ι] (platform : Platform) {tables : Tables}
    (real : ∀ parcel ∈ tables.parcels, isRealSize parcel.sizeSqm = true)
    (ctx : ι → ExecutionContext) {requests : ι → ParcelRequest}
    (plain : ∀ index, isPlainSize (requests index).sizeSqm = true)
    {w : World ι DbStatement PyExc ParcelAnswer (Database ι) DbSession}
    (reaches : World.Reaches (postgres ι) (parcelWorld platform tables ctx requests) w) :
    (∀ parcel ∈ w.db.tables.parcels, isRealSize parcel.sizeSqm = true) ∧
      ∀ index answer, (w.task index).answer = some (.ok answer) → answer.inJson = true := by
  have start : realSizes.rows.OfTables tables := by
    refine ⟨fun e row member => ?_, fun _ _ => trivial⟩
    cases e with
    | parcel => exact ⟨trivial, fun _ _ => trivial, real row member⟩
    | _ => trivial
  obtain ⟨kept, answers⟩ :=
    ParcelRule.reaches start (fun index => realSizes_admits (plain index)) reaches
  refine ⟨fun parcel member => (kept.rows .parcel parcel member).size, ?_⟩
  intro index answer answered
  have shows := answers index answer answered
  cases answer with
  | parcel view => exact inJson_of_real shows.size
  | parcels views =>
      exact List.all_eq_true.mpr fun view member => inJson_of_real (shows view member).size

def surveyedTables : Tables where
  tenants := [{ id := "t-1" }]
  identityUsers := [{ id := sampleId 1, tenantId := "t-1", identitySubject := "s-1", email := "1" }]

/-- A field agent of the tenant. -/
def fieldAgentContext : ExecutionContext :=
  { anonymous with
    principalId := (sampleId 1).str
    tenantId := some "t-1"
    roles := [Role.fieldAgent.value] }

/-- One request registers a parcel of this size, the other lists the parcels. -/
def sizedRequests (size : PyFloat) : Bool → ParcelRequest
  | true => .create none { sizeSqm := some size }
  | false => .list

abbrev sizedWorld (size : PyFloat) :
    World Bool DbStatement PyExc ParcelAnswer (Database Bool) DbSession :=
  parcelWorld samplePlatform.toPlatform surveyedTables (fun _ => fieldAgentContext)
    (sizedRequests size)

/-- The registration, and then the list. -/
def registerThenList : List (Action Bool (Choice Env)) × List (Action Bool (Choice Env)) :=
  (turns sampleNow true [sampleId 0, sampleId 1, sampleId 0, sampleId 0, sampleId 0, sampleId 2,
      sampleId 3, sampleId 0, sampleId 0, sampleId 4, sampleId 5, sampleId 0],
    turns sampleNow false [sampleId 0, sampleId 0, sampleId 0])

theorem parcel_sizes_real_hundred : ∃ w,
    World.Reaches (postgres Bool) (sizedWorld (.finite 100)) w ∧
    w.db.tables.parcels.length = 1 ∧
    (∀ parcel ∈ w.db.tables.parcels, isRealSize parcel.sizeSqm = true) ∧
    ∀ index answer, (w.task index).answer = some (.ok answer) → answer.inJson = true := by
  have observed : World.Observed (postgres Bool) .always (sizedWorld (.finite 100))
      registerThenList.1 registerThenList.2 (fun _ w => w.db.tables.parcels.length = 1) := by
    decide +kernel
  obtain ⟨w, w', runs, later, stored⟩ := observed.runs
  refine ⟨w', runs.trans later, stored, ?_⟩
  exact parcel_sizes_real samplePlatform.toPlatform (by decide) _ (by decide) (runs.trans later)

/-- The list of a tenant cannot be written as JSON once a parcel of it has a size that is
not a number. -/
theorem parcel_size_not_a_number : ∃ w,
    World.Reaches (postgres Bool) (sizedWorld .nan) w ∧
    (w.db.tables.parcels.all fun parcel => isRealSize parcel.sizeSqm) = false ∧
    (w.task false).answer.any (fun answer => answer.toOption.any fun views => !views.inJson) =
      true := by
  have observed : World.Observed (postgres Bool) .always (sizedWorld .nan) registerThenList.1
      registerThenList.2 (fun _ w =>
        (w.db.tables.parcels.all fun parcel => isRealSize parcel.sizeSqm) = false ∧
        (w.task false).answer.any (fun answer => answer.toOption.any fun views => !views.inJson) =
          true) := by
    decide +kernel
  obtain ⟨w, w', runs, later, stored⟩ := observed.runs
  exact ⟨w', runs.trans later, stored⟩

/-! ## Countries -/

/-- A check of a country is rejected with 400, or goes on with two letters A to Z. -/
def WellChecked {α : Type} (country : α → String) (check : Request α) : Prop :=
  (∃ detail, check = .throw (.http 400 detail)) ∨
    ∃ a, check = .ret a ∧ isCountryCode (country a) = true

/-- The text that `create_parcel` checks. -/
def resolvedCountry (ctx : ExecutionContext) (countryCode : Option String) : String :=
  upper ((orElse (orElse countryCode ctx.country) (some Registry.defaultCountry)).getD "")

/-- The text that a registration and a redemption check. -/
def profileCountry (country : Option String) : String :=
  upper ((orElse country Identity.defaultCountry).getD "")

theorem isCountryCode_of_terminated {code : String} (terminated : isTerminatedCode code = true) :
    isCountryCode code = false := by
  have long := isTerminatedCode_length terminated
  rw [← String.length_toList] at long
  unfold isCountryCode
  split
  · rename_i letters
    rw [letters] at long
    cases long
  · rfl

/-- What is checked, and what comes of it. -/
theorem countryCode_cases (text : String) :
    (∃ message, CountryCode.new text = .error (.value message)) ∧
        matchesIso3166 text = false ∨
      ∃ code, CountryCode.new text = .ok code ∧ code.value = text ∧ matchesIso3166 text = true := by
  unfold CountryCode.new
  split
  · rename_i valid
    exact .inr ⟨_, rfl, rfl, valid⟩
  · rename_i invalid
    exact .inl ⟨⟨_, rfl⟩, by simpa using invalid⟩

theorem notTerminated_iff {text : String} (matched : matchesIso3166 text = true) :
    isCountryCode text = true ↔ isTerminatedCode text = false := by
  constructor
  · intro valid
    cases terminated : isTerminatedCode text with
    | false => rfl
    | true => exact absurd valid (by simp [isCountryCode_of_terminated terminated])
  · intro plain
    rw [matchesIso3166_eq, plain, Bool.or_false] at matched
    exact matched

theorem terminated_of_unmatched {text : String} (unmatched : matchesIso3166 text = false) :
    isTerminatedCode text = false := by
  rw [matchesIso3166_eq, Bool.or_eq_false_iff] at unmatched
  exact unmatched.2

theorem resolveCountry_wellChecked_iff (ctx : ExecutionContext) (countryCode : Option String) :
    WellChecked id (resolveCountry ctx countryCode) ↔
      isTerminatedCode (resolvedCountry ctx countryCode) = false := by
  unfold resolveCountry
  dsimp only
  rcases countryCode_cases (resolvedCountry ctx countryCode) with
    ⟨⟨message, raised⟩, unmatched⟩ | ⟨code, made, same, matched⟩
  · unfold resolvedCountry at raised
    rw [raised]
    exact iff_of_true (.inl ⟨_, rfl⟩) (terminated_of_unmatched unmatched)
  · rw [← notTerminated_iff matched, ← same]
    unfold resolvedCountry at made
    rw [made]
    constructor
    · rintro (⟨_, absurd⟩ | ⟨_, rest, valid⟩)
      · cases absurd
      · cases rest
        exact valid
    · exact fun valid => .inr ⟨_, rfl, valid⟩

theorem validateProfile_wellChecked_iff (fullName : String) (country : Option String) :
    WellChecked Prod.snd (validateProfile fullName country) ↔
      fullName = "" ∨ isBlankText fullName = true ∨
        isTerminatedCode (profileCountry country) = false := by
  by_cases blank : (fullName = "" || isBlankText fullName) = true
  · have rejected : validateProfile fullName country = .throw (.http 400 "full_name required") := by
      unfold validateProfile
      rw [if_pos blank]
      rfl
    rw [rejected]
    have unnamed : fullName = "" ∨ isBlankText fullName = true := by simpa using blank
    exact iff_of_true (.inl ⟨_, rfl⟩) (unnamed.imp_right .inl)
  · have checked : validateProfile fullName country =
        (Identity.orBadRequest (CountryCode.new (profileCountry country))).bind fun code =>
          .ret (stripText fullName, code.value) := by
      unfold validateProfile
      rw [if_neg blank]
      rfl
    obtain ⟨given, visible⟩ : fullName ≠ "" ∧ ¬ isBlankText fullName = true := by
      simpa using blank
    rw [checked, or_iff_right given, or_iff_right visible]
    rcases countryCode_cases (profileCountry country) with
      ⟨⟨message, raised⟩, unmatched⟩ | ⟨code, made, same, matched⟩
    · rw [raised]
      exact iff_of_true (.inl ⟨_, rfl⟩) (terminated_of_unmatched unmatched)
    · rw [made, ← notTerminated_iff matched, ← same]
      constructor
      · rintro (⟨_, absurd⟩ | ⟨_, rest, valid⟩)
        · cases absurd
        · cases rest
          exact valid
      · exact fun valid => .inr ⟨_, rfl, valid⟩

theorem validateCredentials_wellChecked_iff (password fullName : String) (country : Option String) :
    WellChecked Prod.snd (validateCredentials password fullName country) ↔
      password.length < 8 ∨ fullName = "" ∨ isBlankText fullName = true ∨
        isTerminatedCode (profileCountry country) = false := by
  by_cases short : password.length < 8
  · have rejected : validateCredentials password fullName country =
        .throw (.http 400 "password must be at least 8 characters") := by
      unfold validateCredentials
      rw [if_pos short]
      rfl
    rw [rejected]
    exact iff_of_true (.inl ⟨_, rfl⟩) (.inl short)
  · have checked : validateCredentials password fullName country =
        validateProfile fullName country := by
      unfold validateCredentials
      rw [if_neg short]
    rw [checked, or_iff_right short]
    exact validateProfile_wellChecked_iff fullName country

/-- Countries and numbers have their form; nothing is asked of sizes. -/
def numbering : ParcelRule where
  country := fun country => isCountryCode country = true
  number := fun number => isParcelNumber number = true
  size := fun _ => True
  country_of_code := fun _ => id
  number_of_format := fun _ => id

/-- The counters, countries and numbers of the tables have their form. -/
structure Numbered (t : Tables) : Prop where
  counters : ∀ counter ∈ t.parcelCounters, isCountryCode counter.1 = true
  countries : ∀ parcel ∈ t.parcels, isCountryCode parcel.countryCode = true
  numbers : ∀ parcel ∈ t.parcels, ∀ number ∈ parcel.parcelNumber, isParcelNumber number = true

theorem numbering_ofTables {t : Tables} : numbering.rows.OfTables t ↔ Numbered t := by
  constructor
  · intro holds
    have rows : ∀ parcel ∈ t.parcels, numbering.Of parcel := holds.rows .parcel
    exact ⟨holds.counters, fun parcel member => (rows parcel member).country,
      fun parcel member => (rows parcel member).number⟩
  · intro numbered
    refine ⟨fun e row member => ?_, numbered.counters⟩
    cases e with
    | parcel => exact ⟨numbered.countries row member, numbered.numbers row member, trivial⟩
    | _ => trivial

theorem numbering_admits (request : ParcelRequest) : numbering.Admits request := by
  cases request with
  | create countryCode details => exact fun _ => trivial
  | update parcelId fields => exact fun _ _ _ => trivial
  | get | list | archive | setGeometryReference => trivial

/-- Nothing is asked. -/
def anything : ParcelRule where
  country := fun _ => True
  number := fun _ => True
  size := fun _ => True
  country_of_code := fun _ _ => trivial
  number_of_format := fun _ _ => trivial

theorem anything_row (e : Entity) (row : e.Row) : anything.rows.row e row := by
  cases e with
  | parcel => exact ⟨trivial, fun _ _ => trivial, trivial⟩
  | _ => trivial

theorem anything_write (w : Write) : anything.rows.OfWrite w := by
  cases w with
  | insertParcel row | updateParcel stored row => exact anything_row .parcel row
  | _ => trivial

/-- Whatever the tables hold, what `allocate` returns for a country that was checked is a
parcel number. -/
theorem allocate_returns {ι : Type} [DecidableEq ι] {index : ι} {country number : String}
    (matched : matchesIso3166 country = true) {choices : List (Choice Env)} {db db' : Database ι}
    {s s' : DbSession}
    (played : play (postgres ι) index choices db s (ParcelNumberAllocator.allocate country) =
      some (.ok number, db', s')) : isParcelNumber number = true := by
  have returns : Respects anything.rows (fun _ => True) index
      (fun number => isCountryCode country = true ∧ isParcelNumber number = true)
      (ParcelNumberAllocator.allocate country) := respects_allocate matched
  have tables : anything.rows.OfTables db.tables :=
    ⟨fun e row _ => anything_row e row, fun _ _ => trivial⟩
  have session : anything.rows.upkeep.OfSession s :=
    ⟨fun e row _ => anything_row e row, fun w _ => anything_write w⟩
  exact ((returns db s).played tables session (fun _ _ => trivial) played).2.2.2

/-- **Countries are well formed where the checked text does not end in a newline.** The
checks of `create_parcel`, of `register_local` and `accept_invitation` and of
`accept_invitation_supabase` are rejected with 400 or go on with two letters A to Z exactly
where the text, in upper case, is not two letters and a newline, or is not looked at. What
goes on with a newline does not fit the column: in every run of requests about parcels, the
counters, countries and numbers that are stored and the numbers that are allocated or
answered have their form. -/
theorem countries_wellFormed_iff {ι : Type} [DecidableEq ι] (platform : Platform)
    {tables : Tables} (numbered : Numbered tables) (ctx : ι → ExecutionContext)
    (requests : ι → ParcelRequest)
    {w : World ι DbStatement PyExc ParcelAnswer (Database ι) DbSession}
    (reaches : World.Reaches (postgres ι) (parcelWorld platform tables ctx requests) w) :
    (∀ ctx countryCode, WellChecked id (resolveCountry ctx countryCode) ↔
      isTerminatedCode (resolvedCountry ctx countryCode) = false) ∧
    (∀ password fullName country,
      WellChecked Prod.snd (validateCredentials password fullName country) ↔
        password.length < 8 ∨ fullName = "" ∨ isBlankText fullName = true ∨
          isTerminatedCode (profileCountry country) = false) ∧
    (∀ fullName country, WellChecked Prod.snd (validateProfile fullName country) ↔
      fullName = "" ∨ isBlankText fullName = true ∨
        isTerminatedCode (profileCountry country) = false) ∧
    (∀ country, matchesIso3166 country = true → ∀ (index : ι) choices db s number db' s',
      play (postgres ι) index choices db s (ParcelNumberAllocator.allocate country) =
        some (.ok number, db', s') → isParcelNumber number = true) ∧
    Numbered w.db.tables ∧
    ∀ index answer, (w.task index).answer = some (.ok answer) → numbering.Answers answer := by
  obtain ⟨kept, answers⟩ := ParcelRule.reaches (numbering_ofTables.mpr numbered)
    (fun index => numbering_admits (requests index)) reaches
  exact ⟨resolveCountry_wellChecked_iff, validateCredentials_wellChecked_iff,
    validateProfile_wellChecked_iff,
    fun country matched index choices db s number db' s' played => allocate_returns matched played,
    numbering_ofTables.mp kept, answers⟩

theorem countries_wellFormed_hundred : ∃ w,
    World.Reaches (postgres Bool) (sizedWorld (.finite 100)) w ∧
    w.db.tables.parcelCounters = [("NG", 1)] ∧ Numbered w.db.tables ∧
    WellChecked id (resolveCountry fieldAgentContext (some "ke")) := by
  have observed : World.Observed (postgres Bool) .always (sizedWorld (.finite 100))
      registerThenList.1 registerThenList.2
      (fun _ w => w.db.tables.parcelCounters = [("NG", 1)]) := by
    decide +kernel
  obtain ⟨w, w', runs, later, counted⟩ := observed.runs
  obtain ⟨resolved, _, _, _, numbered, _⟩ :=
    countries_wellFormed_iff samplePlatform.toPlatform ⟨by decide, by decide, by decide⟩ _ _
      (runs.trans later)
  exact ⟨w', runs.trans later, counted, numbered, (resolved _ _).mpr (by decide)⟩

/-- A country with a newline is neither rejected with 400 nor goes on as two letters: the
check returns it, and the registration ends with an error of the database. -/
theorem terminated_country_fails :
    resolveCountry fieldAgentContext (some "NG\n") = .ret "NG\n" ∧
    isCountryCode "NG\n" = false ∧
    ∃ db s, play (postgres Unit) () (List.replicate 2 { env := { uuid := sampleId 1, now := sampleNow } })
      { tables := surveyedTables } freshSession
      (createParcel samplePlatform.toPlatform fieldAgentContext (some "NG\n") {}) =
        some (.error (.database "value too long for type character varying(2)"), db, s) :=
  ⟨rfl, by decide, _, _, rfl⟩

end LandVault
