import LandVault.Registry.ParcelService
import LandVault.Transactions

/-!
# The repositories of the Registry, in a transaction that runs alone

What each operation answers and stages, over the tables that the transaction sees, and
what the operations of the service leave: the change of one row and the rows of history
that go with it, or nothing at all where they answer with an error.
-/

set_option autoImplicit false

namespace LandVault

open Kernel Kernel.Audit Identity Registry Library.Lineage Library.Programs
open Library.ReadCommitted Python

section Rules

variable {α β A : Type} {allowed : Tables → Prop} {C : Env → Prop} {x : Transaction} {u : Tables}
  {db : Database Unit} {s : DbSession} {platform : Platform} {ctx : ExecutionContext}

/-! ## Identifiers -/

theorem driverUuid_eq_ok {text : String} {id : UUID} (read : driverUuid text = .ok id) :
    UUID.parse text = some id := by
  unfold driverUuid at read
  dsimp only at read
  split at read
  · exact toUuid_ok read
  · cases read

theorem driverUuid_notHttp {text : String} {e : PyExc} (raised : driverUuid text = .error e) :
    e.isHttp = false := by
  unfold driverUuid at raised
  dsimp only at raised
  split at raised
  · obtain ⟨message, rfl⟩ := toUuid_error raised
    rfl
  · cases raised
    rfl

/-! ## Parcels -/

theorem Staged.getParcel (staged : Staged x u db s) (parcelId : String) :
    Keeps allowed C (fun found db s => Staged x u db s ∧
        found = ((UUID.parse parcelId).bind (Entity.lookup .parcel u x.scope)).map
          ParcelRecord.parcel)
      (Failed x u) (ParcelRepository.get parcelId) db s := by
  unfold ParcelRepository.get
  split
  · rename_i unparsed
    exact ⟨staged, by simp [unparsed]⟩
  · rename_i key parsed
    refine (staged.lookup .parcel key).bind ?_
    rintro found db s ⟨staged, rfl⟩
    exact ⟨staged, by simp [parsed]⟩

theorem Staged.updateParcelRow (staged : Staged x u db s) (parcel : Parcel) :
    Keeps allowed C
      (fun updated db s => ∃ record ∈ parcelMapper.seen u x.scope, ∃ new : ParcelRecord,
        record.parcelId = parcel.parcelId ∧ parcel.assignTo record = .ok new ∧
        updated = new.parcel ∧ Staged x (u.apply (.updateParcel record new)) db s)
      (Failed x u) (ParcelRepository.update parcel) db s := by
  refine (staged.lookup .parcel parcel.parcelId).bind ?_
  rintro found db s ⟨staged, answered⟩
  cases found with
  | none => exact ⟨rfl, .inr staged⟩
  | some record =>
      obtain ⟨visible, named⟩ := Entity.mem_of_lookup answered.symm
      refine Meets.bind (N := fun new db s => parcel.assignTo record = .ok new ∧ Staged x u db s)
        (.ofExcept (fun _ made => ⟨made, staged⟩) fun e raised => ?_) ?_
      · obtain ⟨message, rfl⟩ := toOptionalUuid_error (map_eq_error raised)
        exact ⟨rfl, .inr staged⟩
      rintro new db s ⟨made, staged⟩
      refine (staged.flush .parcel visible ?_).bind ?_
      · obtain ⟨updatedBy, _, rfl⟩ := map_eq_ok made
        simp [Entity.mapper, parcelMapper, ParcelRecord.merge]
      · rintro updated db s ⟨rfl, staged⟩
        exact ⟨record, visible, _, named, made, rfl, staged⟩

theorem Staged.addParcel (staged : Staged x u db s) (parcel : Parcel) :
    Keeps allowed C
      (fun added db s => ∃ row, parcel.toRecord = .ok row ∧
        added = (row x.startedAt).parcel ∧
        parcelMapper.sees u x.scope (row x.startedAt) = true ∧
        Staged x (u.apply (.insertParcel (row x.startedAt))) db s)
      (Failed x u) (ParcelRepository.add parcel) db s := by
  refine Meets.bind (N := fun row db s => parcel.toRecord = .ok row ∧ Staged x u db s)
    (.ofExcept (fun _ made => ⟨made, staged⟩) fun e raised => ?_) ?_
  · obtain ⟨message, rfl⟩ := toUuid_error (map_eq_error raised)
    exact ⟨rfl, .inr staged⟩
  rintro row db s ⟨made, staged⟩
  refine (staged.add .parcel _).bind ?_
  rintro added db s ⟨⟨v, env, _, _, rfl⟩, _, sees, staged⟩
  exact ⟨row, made, rfl, sees, staged⟩

theorem Staged.listForTenant (staged : Staged x u db s) (tenantId : String) :
    Keeps allowed C (fun _ => Staged x u) (Failed x u) (ParcelRepository.listForTenant tenantId)
      db s :=
  (staged.selected .parcel _).bind fun _ _ _ found => found.1

/-! ## Histories -/

/-- The rows of a history that the transaction sees of a parcel. -/
def Registry.ParcelHistoryRepository.History.of (history : ParcelHistoryRepository.History A)
    (u : Tables) (scope : Scope) (parcelId : UUID) : List (AssertionOf A UUID Nat) :=
  ((history.rows u).filter fun row => scope.sees row.tenantId).filter (·.parcelId = parcelId)

/-- What the two histories have in common. -/
structure Registry.ParcelHistoryRepository.History.Lawful
    (history : ParcelHistoryRepository.History A) : Prop where
  unmapped : ∀ row, Unmapped (history.insert row)
  rows_records : ∀ t : Tables, history.rows t.records = history.rows t

theorem Registry.ParcelHistoryRepository.ownership_lawful :
    ParcelHistoryRepository.ownership.Lawful :=
  ⟨fun _ => ⟨fun e _ => by cases e <;> rfl, fun _ => rfl⟩, fun _ => rfl⟩

theorem Registry.ParcelHistoryRepository.status_lawful : ParcelHistoryRepository.status.Lawful :=
  ⟨fun _ => ⟨fun e _ => by cases e <;> rfl, fun _ => rfl⟩, fun _ => rfl⟩

theorem Registry.ParcelHistoryRepository.History.foreign_notHttp
    {history : ParcelHistoryRepository.History A} {t : Tables} {row : AssertionOf A UUID Nat}
    {e : PyExc} (raised : history.foreign t row = .error e) : e.isHttp = false := by
  rcases bind_eq_error raised with failed | ⟨_, _, raised⟩
  · exact notHttp_of_isRefusal (tenantExists_refusal failed)
  rcases bind_eq_error raised with failed | ⟨_, _, raised⟩
  · exact notHttp_of_isRefusal (parcelExists_refusal failed)
  rcases bind_eq_error raised with failed | ⟨_, _, raised⟩
  · exact notHttp_of_isRefusal (userExists_refusal failed)
  split at raised
  · cases raised
  · split at raised <;> cases raised
    rfl

variable {history : ParcelHistoryRepository.History A}

theorem Staged.recordHistory (staged : Staged x u db s) (lawful : history.Lawful)
    (assertion : AssertionOf A String Timestamp) :
    Keeps allowed C
      (fun _ db s => ∃ row, assertion.toRecord = .ok row ∧
        Staged x (u.apply (history.insert (row x.startedAt))) db s)
      (Failed x u) (history.record assertion) db s := by
  refine Meets.bind (N := fun row db s => assertion.toRecord = .ok row ∧ Staged x u db s)
    (.ofExcept (fun _ made => ⟨made, staged⟩) fun e raised => ?_) ?_
  · obtain ⟨message, rfl⟩ := toUuid_error (map_eq_error raised)
    exact ⟨rfl, .inr staged⟩
  rintro row db s ⟨made, staged⟩
  refine (staged.stage (G := fun _ w => w = history.insert (row x.startedAt)) ?_ ?_).mono ?_
    fun _ _ _ failed => failed
  · rintro v e (raised | ⟨memo, w, raised⟩)
    · dsimp only at raised
      split at raised
      · cases raised
      · cases raised
        rfl
    · dsimp only at raised
      split at raised
      · simp only [Except.ok.injEq, Effect.mk.injEq] at raised
        exact history.foreign_notHttp (map_eq_error raised.2.1)
      · cases raised
  · intro v env memo b w _ _ _ ran
    dsimp only at ran
    split at ran
    · simp only [Except.ok.injEq, Effect.mk.injEq] at ran
      obtain ⟨rfl, _, rfl⟩ := ran
      exact ⟨rfl, _, rfl, lawful.unmapped _, rfl⟩
    · cases ran
  · rintro _ db s ⟨w, rfl, staged⟩
    exact ⟨row, made, staged⟩

theorem Staged.latestHistory (staged : Staged x u db s) (lawful : history.Lawful)
    (parcelId : UUID) :
    Keeps allowed C
      (fun found db s => Staged x u db s ∧ ∃ pick, found =
        (newest (·.recordedAt) pick (history.of u x.scope parcelId)).map AssertionOf.fromRecord)
      (Failed x u) (history.latest parcelId) db s := by
  refine staged.peek ?_ ?_
  · rintro v e (raised | ⟨memo, w, raised⟩) <;> cases raised
  · intro v env memo b w same _ _ ran
    cases ran
    refine ⟨rfl, ⟨_, rfl⟩, env.pick, ?_⟩
    have rows : history.rows v = history.rows u := by rw [← same, lawful.rows_records]
    simp only [ParcelHistoryRepository.History.of, visible, rows, staged.scope]

/-- A new counter value. -/
theorem Staged.allocate (staged : Staged x u db s) (countryCode : String) :
    Keeps allowed C
      (fun parcelNumber db s => parcelNumber =
          formatParcelNumber countryCode ((u.counter countryCode).getD 0 + 1) ∧
        Staged x (u.apply (.upsertCounter countryCode ((u.counter countryCode).getD 0 + 1))) db s)
      (Failed x u) (ParcelNumberAllocator.allocate countryCode) db s := by
  let value := (u.counter countryCode).getD 0 + 1
  refine (staged.stage (G := fun parcelNumber w => parcelNumber =
    formatParcelNumber countryCode value ∧ w = .upsertCounter countryCode value) ?_ ?_).mono ?_
      fun _ _ _ failed => failed
  · rintro v e (raised | ⟨memo, w, raised⟩)
    · dsimp only at raised
      split_ifs at raised
      all_goals
        cases raised
        rfl
    · dsimp only at raised
      split_ifs at raised
      all_goals cases raised
  · intro v env memo b w same _ _ ran
    have counter : v.counter countryCode = u.counter countryCode := by rw [← same]; rfl
    dsimp only at ran
    split_ifs at ran
    cases ran
    rw [counter]
    exact ⟨rfl, _, rfl, ⟨fun e _ => by cases e <;> rfl, fun _ => rfl⟩, rfl, rfl⟩
  · rintro parcelNumber db s ⟨w, ⟨rfl, rfl⟩, staged⟩
    exact ⟨rfl, staged⟩

/-! ## What a request finds -/

/-- The parcel that a request names. -/
structure Locates (ctx : ExecutionContext) (scope : Scope) (u : Tables) (parcelId : String)
    (record : ParcelRecord) : Prop where
  visible : record ∈ parcelMapper.seen u scope
  named : UUID.parse parcelId = some record.parcelId
  inside : inScope ctx record.tenantId = true

/-- The parcel that a request names and may change. -/
structure Targets (ctx : ExecutionContext) (scope : Scope) (u : Tables) (parcelId : String)
    (record : ParcelRecord) : Prop extends Locates ctx scope u parcelId record where
  entitled : canMutate ctx record.createdBy.str = true

theorem Staged.loadInScope (staged : Staged x u db s) (parcelId : String) :
    Keeps allowed C
      (fun parcel db s => Staged x u db s ∧ ∃ record, Locates ctx x.scope u parcelId record ∧
        parcel = record.parcel)
      (Raising x (Unchanged u)) (Registry.loadInScope ctx parcelId) db s := by
  refine keeps_then (staged.getParcel parcelId) ?_
  rintro found db s ⟨staged, rfl⟩
  cases parsed : UUID.parse parcelId with
  | none => exact staged.raise rfl
  | some key =>
      cases answered : Entity.lookup .parcel u x.scope key with
      | none =>
          simp only [Option.bind_some, answered]
          exact staged.raise rfl
      | some record =>
          obtain ⟨visible, rfl⟩ := Entity.mem_of_lookup answered
          simp only [Option.bind_some, answered]
          refine .ite (fun inside => ?_) fun _ => staged.raise rfl
          exact ⟨staged, record, ⟨visible, parsed, inside⟩, rfl⟩

theorem Staged.authorizeMutation (staged : Staged x u db s) (parcel : Parcel) :
    Keeps allowed C (fun _ db s => Staged x u db s ∧ canMutate ctx parcel.createdBy = true)
      (Raising x (Unchanged u)) (Registry.authorizeMutation platform ctx parcel) db s := by
  refine .ite (fun entitled => ⟨staged, entitled⟩) fun _ => ?_
  exact staged.audited _ fun _ _ staged => staged.raise rfl

/-- What every mutation starts with. The parcel stays a variable: it is not evaluated
whether its creator calls. -/
theorem Staged.target (staged : Staged x u db s) (parcelId : String)
    {Q : β → Assertion (Database Unit) DbSession} {rest : Parcel → Request β}
    (continues : ∀ record parcel db s, Targets ctx x.scope u parcelId record →
      parcel = ParcelRecord.parcel record → Staged x u db s →
      Keeps allowed C Q (Raising x (Unchanged u)) (rest parcel) db s) :
    Keeps allowed C Q (Raising x (Unchanged u))
      ((Registry.loadInScope ctx parcelId).bind fun parcel =>
        (Registry.authorizeMutation platform ctx parcel).bind fun _ => rest parcel) db s := by
  refine Meets.bind (staged.loadInScope parcelId) fun parcel db s found => ?_
  obtain ⟨staged, record, finds, same⟩ := found
  refine Meets.bind (staged.authorizeMutation parcel) fun _ db s authorized => ?_
  have entitled : canMutate ctx record.createdBy.str = true := by
    have creator : parcel.createdBy = record.createdBy.str := by rw [same]; rfl
    exact creator ▸ authorized.2
  exact continues record parcel db s ⟨finds, entitled⟩ same authorized.1

theorem Staged.orConflict (staged : Staged x u db s) (result : Except PyExc α) :
    Keeps allowed C (fun value db s => Staged x u db s ∧ result = .ok value)
      (Raising x (Unchanged u)) (Registry.orConflict result) db s := by
  unfold Registry.orConflict
  split
  · exact ⟨staged, rfl⟩
  · exact staged.raise rfl
  · exact staged.raise rfl

theorem Staged.auditPermit (staged : Staged x u db s) (action : String) (parcel : Parcel)
    (entryId : Option String) (payload : List (String × Detail)) :
    Keeps allowed C (fun _ => Staged x u) (Failed x u)
      (Registry.auditPermit platform ctx action parcel entryId payload) db s :=
  (staged.audit _ _ _).bind fun _ _ _ staged => staged

/-- A row of history of a parcel. -/
structure Asserts (history : ParcelHistoryRepository.History A) (x : Transaction) (parcelId : UUID)
    (tenantId : String) (asserted : A) (supersedesId : Option UUID)
    (row : AssertionOf A UUID Nat) : Prop where
  parcelId : row.parcelId = parcelId
  tenantId : row.tenantId = tenantId
  asserted : row.asserted = asserted
  supersedesId : row.supersedesId = supersedesId
  recordedAt : row.recordedAt = x.startedAt

theorem Staged.assertHistory (staged : Staged x u db s) (lawful : history.Lawful) (parcel : Parcel)
    (asserted : A) (basis auditId : String) (supersedesId : Option UUID) :
    Keeps allowed C
      (fun _ db s => ∃ row,
        Asserts history x parcel.parcelId parcel.tenantId asserted supersedesId row ∧
        Staged x (u.apply (history.insert row)) db s)
      (Failed x u)
      (Registry.assertHistory history ctx parcel asserted basis auditId supersedesId) db s := by
  refine staged.choose.bind ?_
  rintro ⟨id, now⟩ db s ⟨staged, _⟩
  refine (staged.recordHistory lawful _).bind ?_
  rintro _ db s ⟨row, made, staged⟩
  obtain ⟨_, tenantId, parcelId, stated, _, supersedes, recordedAt⟩ :=
    AssertionOf.toRecord_eq made x.startedAt
  exact ⟨_, ⟨parcelId, tenantId, stated, supersedes, recordedAt⟩, staged⟩

end Rules
end LandVault
