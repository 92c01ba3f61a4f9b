import LandVault.Tenancy

/-!
# Where the rows of the histories come from

A row of a history carries the identifier of an audit entry. The entry is written in a session
of its own and is committed at once, the row with its transaction: so the entry may be there
without the row, but no committed row is without its entry. And no parcel is without the row
of its registration, since both are committed together.
-/

set_option autoImplicit false

namespace LandVault

open Kernel Kernel.Audit Identity Registry Spatial Evidence Library.JsonText Library.Programs
open Library.ReadCommitted Python

/-! ## Rows of the histories -/

section Histories

variable {t : Tables} {w : Write} {ws : List Write}

theorem mem_ownershipHistory_applyAll {row : OwnershipRecord} :
    row ∈ (engine.applyAll t ws).ownershipHistory ↔
      row ∈ t.ownershipHistory ∨ .insertOwnership row ∈ ws := by
  induction ws generalizing t with
  | nil => simp [Engine.applyAll]
  | cons w ws ih =>
      have one : row ∈ (engine.apply t w).ownershipHistory ↔
          row ∈ t.ownershipHistory ∨ .insertOwnership row = w := by
        cases w with
        | insertOwnership row' =>
            exact List.mem_append.trans (or_congr_right (by simp))
        | _ => exact ⟨.inl, fun either => either.elim id fun absurd => by cases absurd⟩
      have rest : row ∈ (engine.applyAll (engine.apply t w) ws).ownershipHistory ↔ _ := ih
      rw [one] at rest
      simpa [Engine.applyAll, or_assoc] using rest

theorem mem_statusHistory_applyAll {row : StatusRecord} :
    row ∈ (engine.applyAll t ws).statusHistory ↔
      row ∈ t.statusHistory ∨ .insertStatus row ∈ ws := by
  induction ws generalizing t with
  | nil => simp [Engine.applyAll]
  | cons w ws ih =>
      have one : row ∈ (engine.apply t w).statusHistory ↔
          row ∈ t.statusHistory ∨ .insertStatus row = w := by
        cases w with
        | insertStatus row' =>
            exact List.mem_append.trans (or_congr_right (by simp))
        | _ => exact ⟨.inl, fun either => either.elim id fun absurd => by cases absurd⟩
      have rest : row ∈ (engine.applyAll (engine.apply t w) ws).statusHistory ↔ _ := ih
      rw [one] at rest
      simpa [Engine.applyAll, or_assoc] using rest

end Histories

/-! ## Attested rows -/

/-- The parcel has the row that its registration leaves. -/
def HasOpening (t : Tables) (parcelId : UUID) : Prop :=
  ∃ row ∈ t.statusHistory, row.parcelId = parcelId ∧ row.asserted = .active

/-- Every row of the histories is about a committed parcel, under its tenant, and names a
committed entry that permits what the row asserts; and every parcel has the row that its
registration leaves. -/
structure Attested (normalise : Number → Number) (t : Tables) : Prop where
  ownership : ∀ row ∈ t.ownershipHistory,
    OnRegister t row.parcelId row.tenantId ∧ OwnershipPermitted normalise t row
  status : ∀ row ∈ t.statusHistory,
    OnRegister t row.parcelId row.tenantId ∧ StatusPermitted normalise t row
  opened : ∀ parcel ∈ t.parcels, HasOpening t parcel.parcelId

section Attested

variable {fresh : Tables → Memo → Write → Prop} {normalise : Number → Number}
  {ctx : ExecutionContext} {request : ParcelRequest} {t t' : Tables} {ws : List Write}

theorem Attested.of_empty (parcels : t.parcels = []) (ownership : t.ownershipHistory = [])
    (status : t.statusHistory = []) : Attested normalise t := by
  constructor <;> simp [parcels, ownership, status]

/-- A commit of attested rows, in which each new parcel comes with its row. -/
theorem Attested.commit (attested : Attested normalise t) (makes : steadily.Makes t ws)
    (ownership : ∀ row, .insertOwnership row ∈ ws →
      OnRegister (engine.applyAll t ws) row.parcelId row.tenantId ∧
        OwnershipPermitted normalise t row)
    (status : ∀ row, .insertStatus row ∈ ws →
      OnRegister (engine.applyAll t ws) row.parcelId row.tenantId ∧
        StatusPermitted normalise t row)
    (opened : ∀ parcel, .insertParcel parcel ∈ ws →
      ∃ row, .insertStatus row ∈ ws ∧ row.parcelId = parcel.parcelId ∧ row.asserted = .active) :
    Attested normalise (engine.applyAll t ws) := by
  have advances : steadily.Advances t (engine.applyAll t ws) :=
    (Discipline.Advances.refl t).tail makes
  have grows := (auditLog_of_advances advances).subset
  have onRegister := fun parcelId tenantId => lasting_registered parcelId tenantId _ _ advances
  constructor
  · intro row member
    rcases mem_ownershipHistory_applyAll.mp member with old | new
    · obtain ⟨registered, permitted⟩ := attested.ownership row old
      exact ⟨onRegister _ _ registered, permitted.later grows⟩
    · obtain ⟨registered, permitted⟩ := ownership row new
      exact ⟨registered, permitted.later grows⟩
  · intro row member
    rcases mem_statusHistory_applyAll.mp member with old | new
    · obtain ⟨registered, permitted⟩ := attested.status row old
      exact ⟨onRegister _ _ registered, permitted.later grows⟩
    · obtain ⟨registered, permitted⟩ := status row new
      exact ⟨registered, permitted.later grows⟩
  · intro parcel member
    have stems : Stems .parcel t ws parcel :=
      stems_of_viewed makes.grounded makes.unique (steady_makes makes) member
    rcases stems with ⟨old, there, same⟩ | ⟨new, inserted, same⟩
    · obtain ⟨row, present, named, asserted⟩ := attested.opened old there
      have key : parcel.parcelId = old.parcelId := (Entity.key_of_frozen same).symm
      exact ⟨row, mem_statusHistory_applyAll.mpr (.inl present), named.trans key.symm, asserted⟩
    · obtain ⟨row, present, named, asserted⟩ := opened new inserted
      have key : parcel.parcelId = new.parcelId := (Entity.key_of_frozen same).symm
      exact ⟨row, mem_statusHistory_applyAll.mpr (.inr present), named.trans key.symm, asserted⟩

theorem Owned.attests {parcel : ParcelRecord} {owners : List OwnershipRecord}
    (owned : Owned normalise t parcel owners)
    (registered : OnRegister t' parcel.parcelId parcel.tenantId) : ∀ row ∈ owners,
      OnRegister t' row.parcelId row.tenantId ∧ OwnershipPermitted normalise t row := by
  intro row member
  cases owned with
  | unchanged => cases member
  | asserted declares permitted =>
      obtain rfl := List.mem_singleton.mp member
      exact ⟨by rwa [declares.parcelId, declares.tenantId], permitted⟩

/-- What follows the write over a parcel. -/
theorem Overwritten.past {new : ParcelRecord} {more : List Write} {w : Write}
    (overwritten : Overwritten fresh ctx request new ws) (member : w ∈ ws ++ more)
    (other : ∀ stored row, w ≠ .updateParcel stored row) : w ∈ more := by
  rcases List.mem_append.mp member with mine | later
  · cases overwritten with
    | same => cases mine
    | written => exact absurd (List.mem_singleton.mp mine) (other _ _)
  · exact later

theorem onRegister_of_insert (makes : steadily.Makes t ws) (record : ParcelRecord)
    (inserted : .insertParcel record ∈ ws) :
    OnRegister (engine.applyAll t ws) record.parcelId record.tenantId := by
  have stems : Stems .parcel t ws record := .inr ⟨record, inserted, rfl⟩
  obtain ⟨row, member, same⟩ := stems.viewed makes.grounded makes.unique (steady_makes makes)
  have columns := congrArg (fun row : ParcelRecord => (row.parcelId, row.tenantId)) same
  change (row.parcelId, row.tenantId) = (record.parcelId, record.tenantId) at columns
  simp only [Prod.mk.injEq] at columns
  exact ⟨row, member, columns⟩

/-- **One commit.** -/
theorem Enters.attested (enters : Enters fresh normalise ctx t request ws)
    (makes : steadily.Makes t ws) (attested : Attested normalise t) :
    Attested normalise (engine.applyAll t ws) := by
  have advances : steadily.Advances t (engine.applyAll t ws) :=
    (Discipline.Advances.refl t).tail makes
  have later := fun parcelId tenantId => lasting_registered parcelId tenantId _ _ advances
  cases enters with
  | get => exact attested
  | list => exact attested
  | @create countryCode details record value owners row number active country short tenant owned
      declares permitted =>
      have registered := onRegister_of_insert makes record (by simp)
      refine attested.commit makes (fun owner member => ?_) (fun row' member => ?_)
        fun parcel member => ?_
      · refine owned.attests registered owner ?_
        simpa using member
      · obtain rfl : row' = row := by simpa using member
        exact ⟨by rwa [declares.parcelId, declares.tenantId], permitted⟩
      · obtain rfl : parcel = record := by simpa using member
        exact ⟨row, by simp, declares.parcelId, declares.asserted⟩
  | @update parcelId fields new ws' owners named registered overwritten owned =>
      refine attested.commit makes (fun owner member => ?_) (fun row member => ?_)
        fun parcel member => ?_
      · refine owned.attests (later _ _ registered) owner ?_
        simpa using overwritten.past member (by simp)
      · exact absurd (overwritten.past member (by simp)) (by simp)
      · exact absurd (overwritten.past member (by simp)) (by simp)
  | @archive parcelId new ws' row named registered overwritten declares permitted =>
      refine attested.commit makes (fun owner member => ?_) (fun row' member => ?_)
        fun parcel member => ?_
      · exact absurd (overwritten.past member (by simp)) (by simp)
      · obtain rfl : row' = row := by simpa using overwritten.past member (by simp)
        have registered := later _ _ registered
        exact ⟨by rwa [declares.parcelId, declares.tenantId], permitted⟩
      · exact absurd (overwritten.past member (by simp)) (by simp)
  | setGeometryReference named overwritten =>
      have nothing : ∀ w ∈ ws, ∃ stored row, w = .updateParcel stored row := by
        intro w member
        cases overwritten with
        | same => cases member
        | written => exact ⟨_, _, List.mem_singleton.mp member⟩
      refine attested.commit makes (fun owner member => ?_) (fun row member => ?_)
        fun parcel member => ?_ <;>
      · obtain ⟨_, _, absurd⟩ := nothing _ member
        cases absurd

end Attested

/-! ## Runs -/

section Runs

variable {ι : Type} [DecidableEq ι] {platform : ServicePlatform} {ctx : ι → ExecutionContext}
  {call : ι → BackendCall} {tables : Tables}
  {w : World ι DbStatement PyExc (ServiceAnswer ⊕ IdentityAnswer) (Database ι) DbSession}

theorem Attested.foreign {normalise : Number → Number} {t : Tables} {ws : List Write}
    (attested : Attested normalise t) (makes : steadily.Makes t ws)
    (other : ∀ w ∈ ws, w.context ≠ .registry) : Attested normalise (engine.applyAll t ws) :=
  attested.commit makes (fun _ member => absurd rfl (other _ member))
    (fun _ member => absurd rfl (other _ member)) fun _ member => absurd rfl (other _ member)

/-- **No row of a history is without its audit entry**, whatever the interleaving, and wherever
calls fail or crash: each is about a committed parcel, under the tenant of the parcel, and its
`audit_ref` is the identifier of a committed entry that permits an action on that parcel, under
that tenant, and for that holder. And no parcel is without the row of its registration. -/
theorem histories_attested (unique : tables.keys.Nodup)
    (attested : Attested platform.normalise tables)
    (reaches : World.Reaches (postgres ι) (backendWorld platform ctx call tables) w) :
    Attested platform.normalise w.db.tables := by
  obtain ⟨_, log, chronicle⟩ := chronicle_of_reaches unique .refl reaches
  refine chronicle.serial.induction (I := Attested platform.normalise) ?_ ?_ attested
  · rintro t _ makes ⟨row, rfl⟩ attested
    exact attested.foreign makes fun w member => by rw [List.mem_singleton.mp member]; nofun
  · intro index result t ws _ makes accounts attested
    rcases accounts.registry with ⟨request, _, enters⟩ | foreign
    · exact enters.attested makes attested
    · exact attested.foreign makes foreign

/-- The settler registers a parcel, where there is none, and names its holder. -/
def homestead : BackendCall :=
  .service (.parcel (.create (some "NG") { currentOwnerName := some "A" }))

theorem histories_attested_homestead : ∃ w a, World.Reaches (postgres Unit)
    (backendWorld servicePlatform (fun _ => settler) (fun _ => homestead)
      { villageTables with parcels := [] }) w ∧ (w.task ()).answer = some (.ok a) ∧
    w.db.tables.ownershipHistory.length = 1 ∧ Attested servicePlatform.normalise w.db.tables := by
  obtain ⟨w, result, reaches, answered, holds⟩ := reached_of_play
    (getDbSession settler (homestead.serve servicePlatform settler))
    { villageTables with parcels := [] } (drawn 18)
    (fun t result => result.toOption.isSome && t.ownershipHistory.length == 1) (by decide +kernel)
  rw [Bool.and_eq_true, beq_iff_eq] at holds
  obtain ⟨ends, owners⟩ := holds
  cases result with
  | error e => cases ends
  | ok a =>
      exact ⟨w, a, reaches, answered, owners,
        histories_attested (by decide) (.of_empty rfl rfl rfl) reaches⟩

end Runs
end LandVault
