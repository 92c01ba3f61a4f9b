import LandVault.Identity.Invitations
import LandVault.Tenancy

/-!
# What edits a parcel

Calls run side by side, with no lock between the load of a parcel and its UPDATE. What is known
of a parcel, its row, its histories and its geometries, is still changed by nothing but the calls
that name that parcel and whose unit of work ends with a value: a call that fails leaves no trace
in it, whatever the others do.

The mutators refuse a parcel that is archived, but they look at a copy that their transaction
loaded earlier. Where each UPDATE of a parcel finds the status that its transaction has read, no
commit changes a row that is archived: no edit, no other geometry reference, and no second
archival.
-/

set_option autoImplicit false

namespace LandVault

open Kernel Kernel.Audit Identity Registry Spatial Evidence Library.JsonText Library.Programs
open Library.ReadCommitted Python

/-! ## What is known of a parcel -/

/-- The row of a parcel, the rows of its histories, and its geometries. -/
def Tables.ofParcel (parcelId : UUID) (t : Tables) :
    List ParcelRecord × List OwnershipRecord × List StatusRecord × List ParcelGeometryRecord :=
  (t.parcels.filter (·.parcelId = parcelId), t.ownershipHistory.filter (·.parcelId = parcelId),
    t.statusHistory.filter (·.parcelId = parcelId), t.parcelGeometries.filter (·.parcelId = parcelId))

/-- The parcel that a write is about. -/
def Write.parcel : Write → Option UUID
  | .insertParcel row => some row.parcelId
  | .updateParcel _ row => some row.parcelId
  | .insertOwnership row => some row.parcelId
  | .insertStatus row => some row.parcelId
  | .insertGeometry row => some row.parcelId
  | .updateGeometry _ row => some row.parcelId
  | _ => none

/-- The call asks for a change of the parcel. -/
def BackendCall.Edits (parcelId : UUID) : BackendCall → Prop
  | .service (.parcel (.update text _)) => UUID.parse text = some parcelId
  | .service (.parcel (.archive text)) => UUID.parse text = some parcelId
  | .service (.parcel (.setGeometryReference text _)) => UUID.parse text = some parcelId
  | .service (.geometry (.submit text _)) => UUID.parse text = some parcelId
  | _ => False

section Parcels

variable {t u : Tables} {w : Write} {ws : List Write} {parcelId : UUID}

theorem filter_appended {R : Type} {p : R → Bool} {row : R} (out : p row = false) (rows : List R) :
    (rows ++ [row]).filter p = rows.filter p := by
  simp [List.filter_append, out]

theorem filter_overwritten {R : Type} {p : R → Bool} {rows rows' front back : List R}
    {old new : R} (held : rows = front ++ old :: back) (after : rows' = front ++ new :: back)
    (was : p old = false) (is : p new = false) : rows'.filter p = rows.filter p := by
  rw [held, after, List.filter_append, List.filter_append, List.filter_cons_of_neg (by simp [is]),
    List.filter_cons_of_neg (by simp [was])]

theorem ofParcel_apply (unique : t.keys.Nodup) (stands : Stands t w) (steady : Steady w)
    (other : w.parcel ≠ some parcelId) : (t.apply w).ofParcel parcelId = t.ofParcel parcelId := by
  cases w with
  | insertParcel row =>
      have apart : row.parcelId ≠ parcelId := fun same => other (congrArg some same)
      exact congrArg (·, _, _, _) (filter_appended (by simpa using apart) t.parcels)
  | updateParcel stored row =>
      have apart : row.parcelId ≠ parcelId := fun same => other (congrArg some same)
      obtain ⟨front, back, held, after⟩ := replaceRow_split (fun row _ => row)
        (Entity.keys_nodup .parcel unique) stands.1 stands.2
      refine congrArg (·, _, _, _) (filter_overwritten held after ?_ (by simpa using apart))
      simpa [← stands.2] using apart
  | insertOwnership row =>
      have apart : row.parcelId ≠ parcelId := fun same => other (congrArg some same)
      exact congrArg (_, ·, _, _) (filter_appended (by simpa using apart) t.ownershipHistory)
  | insertStatus row =>
      have apart : row.parcelId ≠ parcelId := fun same => other (congrArg some same)
      exact congrArg (_, _, ·, _) (filter_appended (by simpa using apart) t.statusHistory)
  | insertGeometry row =>
      have apart : row.parcelId ≠ parcelId := fun same => other (congrArg some same)
      exact congrArg (_, _, _, ·) (filter_appended (by simpa using apart) t.parcelGeometries)
  | updateGeometry stored row =>
      have apart : row.parcelId ≠ parcelId := fun same => other (congrArg some same)
      have same : row.parcelId = stored.parcelId := by
        have column := congrArg (fun row : ParcelGeometryRecord => row.parcelId) steady
        exact column
      obtain ⟨front, back, held, after⟩ := replaceRow_split (fun row _ => row)
        (Entity.keys_nodup .geometry unique) stands.1 stands.2
      refine congrArg (_, _, _, ·) (filter_overwritten held after ?_ (by simpa using apart))
      simpa [← same] using apart
  | _ => rfl

theorem ofParcel_makes (makes : steadily.Makes t ws)
    (other : ∀ w ∈ ws, w.parcel ≠ some parcelId) :
    (engine.applyAll t ws).ofParcel parcelId = t.ofParcel parcelId :=
  makes.induction (I := fun u => u.ofParcel parcelId = t.ofParcel parcelId)
    (fun _ w member unique stands same =>
      (ofParcel_apply unique stands (steady_makes makes w member) (other w member)).trans same) rfl

theorem present_of_ofParcel (same : u.ofParcel parcelId = t.ofParcel parcelId)
    (present : ∃ record ∈ t.parcels, record.parcelId = parcelId) :
    ∃ record ∈ u.parcels, record.parcelId = parcelId := by
  obtain ⟨record, member, named⟩ := present
  have listed : record ∈ (t.ofParcel parcelId).1 := List.mem_filter.mpr ⟨member, by simpa using named⟩
  rw [← same] at listed
  exact ⟨record, List.mem_of_mem_filter listed, named⟩

theorem Write.context_of_parcel (about : w.parcel = some parcelId) :
    w.context = .registry ∨ w.context = .spatial := by
  cases w with
  | insertParcel | updateParcel | insertOwnership | insertStatus => exact .inl rfl
  | insertGeometry | updateGeometry => exact .inr rfl
  | _ => cases about

end Parcels

/-! ## What a request writes -/

section Requests

variable {fresh : Tables → Memo → Write → Prop} {normalise : Number → Number}
  {ctx : ExecutionContext} {request : ParcelRequest} {t : Tables} {w : Write} {ws : List Write}
  {new : ParcelRecord} {parcelId : UUID}

theorem Overwritten.parcel (overwritten : Overwritten fresh ctx request new ws) (member : w ∈ ws) :
    w.parcel = some new.parcelId := by
  cases overwritten with
  | same => cases member
  | written overwrites =>
      obtain rfl := List.mem_singleton.mp member
      exact congrArg some (Entity.key_of_frozen overwrites.copied).symm

theorem Owned.parcel {parcel : ParcelRecord} {owners : List OwnershipRecord}
    (owned : Owned normalise t parcel owners) (member : w ∈ owners.map .insertOwnership) :
    w.parcel = some parcel.parcelId := by
  cases owned with
  | unchanged => cases member
  | asserted declares =>
      obtain rfl := List.mem_singleton.mp member
      exact congrArg some declares.parcelId

/-- A request writes nothing about a parcel that is there, unless it asks for a change of it. -/
theorem Enters.edits (enters : Enters fresh normalise ctx t request ws)
    (makes : steadily.Makes t ws) (present : ∃ record ∈ t.parcels, record.parcelId = parcelId)
    (member : w ∈ ws) (about : w.parcel = some parcelId) :
    (BackendCall.service (.parcel request)).Edits parcelId := by
  cases enters with
  | get => cases member
  | list => cases member
  | @create _ _ record value owners row _ _ _ _ _ owned declares =>
      exfalso
      have named : record.parcelId = parcelId := by
        refine Option.some.inj (Eq.trans ?_ about)
        rcases List.mem_cons.mp member with rfl | member
        · cases about
        rcases List.mem_cons.mp member with rfl | member
        · rfl
        rcases List.mem_append.mp member with owner | status
        · exact (owned.parcel owner).symm
        · obtain rfl := List.mem_singleton.mp status
          exact congrArg some declares.parcelId.symm
      have absent := makes.grounded.2.1.1 (.parcelId parcelId)
        (by simp [engine, Write.adds, Write.rowEntries, named])
      obtain ⟨stored, there, same⟩ := present
      refine absent ?_
      have listed : Key.parcelId parcelId ∈ t.parcels.map (Key.parcelId ·.parcelId) :=
        List.mem_map.mpr ⟨stored, there, congrArg _ same⟩
      simp only [engine, Tables.keys, Tables.rowKeys, Tables.recordKeys, List.mem_append]
      tauto
  | update named _ overwritten owned =>
      rcases List.mem_append.mp member with mine | owner
      · cases Option.some.inj ((overwritten.parcel mine).symm.trans about)
        exact named
      · cases Option.some.inj ((owned.parcel owner).symm.trans about)
        exact named
  | archive named _ overwritten declares =>
      rcases List.mem_append.mp member with mine | status
      · cases Option.some.inj ((overwritten.parcel mine).symm.trans about)
        exact named
      · obtain rfl := List.mem_singleton.mp status
        cases declares.parcelId.symm.trans (Option.some.inj about)
        exact named
  | setGeometryReference named overwritten =>
      cases Option.some.inj ((overwritten.parcel member).symm.trans about)
      exact named

theorem Surveys.edits {request : SpatialRequest} (surveys : Surveys t request ws)
    (member : w ∈ ws) (about : w.parcel = some parcelId) :
    (BackendCall.service (.geometry request)).Edits parcelId := by
  cases surveys with
  | getActive => cases member
  | submit named retires =>
      rcases List.mem_append.mp member with mine | inserted
      · cases retires with
        | unchanged => cases mine
        | written parcel =>
            obtain rfl := List.mem_singleton.mp mine
            cases parcel.symm.trans (Option.some.inj about)
            exact named
      · obtain rfl := List.mem_singleton.mp inserted
        cases Option.some.inj about
        exact named

end Requests

/-! ## What a call commits -/

section Calls

variable {base t : Tables} {fresh : Tables → Memo → Write → Prop} {platform : ServicePlatform}
  {ctx : ExecutionContext} {call : BackendCall}
  {result : Except PyExc (ServiceAnswer ⊕ IdentityAnswer)} {ws : List Write} {w : Write}
  {parcelId : UUID}

/-- A unit of work that ends in an error commits nothing of the two contexts. -/
theorem Accounts.rejected {e : PyExc}
    (accounts : Accounts base fresh platform ctx call (.error e) t ws) (member : w ∈ ws) :
    w.context ≠ .registry ∧ w.context ≠ .spatial := by
  constructor
  · rcases accounts.registry with ⟨request, rfl, _⟩ | foreign
    · have nothing : ws = [] := accounts.owes
      rw [nothing] at member
      cases member
    · exact foreign w member
  · rcases accounts.spatial with ⟨request, rfl, _⟩ | foreign
    · have nothing : ws = [] := accounts.owes
      rw [nothing] at member
      cases member
    · exact foreign w member

/-- What is written about a parcel, a call has asked for that succeeds. -/
theorem Accounts.edits (accounts : Accounts base fresh platform ctx call result t ws)
    (makes : steadily.Makes t ws) (present : ∃ record ∈ t.parcels, record.parcelId = parcelId)
    (member : w ∈ ws) (about : w.parcel = some parcelId) :
    (∃ a, result = .ok a) ∧ call.Edits parcelId := by
  have either := Write.context_of_parcel about
  cases result with
  | error e =>
      obtain ⟨registry, spatial⟩ := accounts.rejected member
      exact absurd either (not_or.mpr ⟨registry, spatial⟩)
  | ok a =>
      refine ⟨⟨a, rfl⟩, ?_⟩
      rcases either with registry | spatial
      · rcases accounts.registry with ⟨request, rfl, enters⟩ | foreign
        · exact enters.edits makes present member about
        · exact absurd registry (foreign w member)
      · rcases accounts.spatial with ⟨request, rfl, surveys⟩ | foreign
        · exact surveys.edits member about
        · exact absurd spatial (foreign w member)

end Calls

/-! ## Parcels that are archived -/

/-- An UPDATE of a parcel finds the status of which its transaction has read copies. -/
abbrev ReadsStatus : Tables → Memo → Write → Prop :=
  Fresh .parcel fun parcel : ParcelRecord => parcel.status

section Archived

variable {normalise : Number → Number} {ctx : ExecutionContext} {request : ParcelRequest}
  {t : Tables} {w : Write} {ws : List Write} {record stored row new : ParcelRecord}

/-- A write changes no parcel but the one that it finds. -/
theorem mem_parcels_apply (unique : t.keys.Nodup) (stands : Stands t w)
    (archived : record.status = .archived)
    (active : ∀ stored row, w = .updateParcel stored row → stored.status = .active)
    (member : record ∈ t.parcels) : record ∈ (t.apply w).parcels := by
  cases w with
  | insertParcel row => exact List.mem_append_left _ member
  | updateParcel stored row =>
      have other : record.parcelId ≠ row.parcelId := by
        intro same
        have found : record = stored :=
          List.inj_on_of_nodup_map (Entity.keys_nodup .parcel unique) member stands.1
            (same.trans stands.2)
        have held := active stored row rfl
        rw [← found, archived] at held
        cases held
      exact List.mem_map.mpr ⟨record, member, if_neg other⟩
  | _ => exact member

theorem mem_parcels_makes (makes : steadily.Makes t ws) (archived : record.status = .archived)
    (active : ∀ stored row, .updateParcel stored row ∈ ws → stored.status = .active)
    (member : record ∈ t.parcels) : record ∈ (engine.applyAll t ws).parcels :=
  makes.induction (I := fun t => record ∈ t.parcels)
    (fun _ _ written unique stands member => mem_parcels_apply unique stands archived
      (fun stored row same => active stored row (same ▸ written)) member) member

/-- The copy that was edited is active, and the row that is found has its status. -/
theorem Overwritten.active (overwritten : Overwritten ReadsStatus ctx request new ws)
    (written : .updateParcel stored row ∈ ws) : stored.status = .active := by
  cases overwritten with
  | same => cases written
  | written overwrites =>
      cases List.mem_singleton.mp written
      obtain ⟨loaded, record, parcel, known, u, mutates, same, _, noted, _, renews⟩ :=
        overwrites.exists_copies
      have read : loaded.status = stored.status := renews.agrees noted same.symm
      exact read.symm.trans mutates.active

theorem Enters.active (enters : Enters ReadsStatus normalise ctx t request ws)
    (written : .updateParcel stored row ∈ ws) : stored.status = .active := by
  cases enters with
  | get => cases written
  | list => cases written
  | create => simp at written
  | update _ _ overwritten =>
      rcases List.mem_append.mp written with mine | later
      · exact overwritten.active mine
      · simp at later
  | archive _ _ overwritten =>
      rcases List.mem_append.mp written with mine | later
      · exact overwritten.active mine
      · simp at later
  | setGeometryReference _ overwritten => exact overwritten.active written

end Archived

/-! ## Runs -/

section Runs

variable {ι : Type} [DecidableEq ι] {platform : ServicePlatform} {ctx : ι → ExecutionContext}
  {call : ι → BackendCall} {tables : Tables}
  {w w' : World ι DbStatement PyExc (ServiceAnswer ⊕ IdentityAnswer) (Database ι) DbSession}

/-- **A parcel is edited by the calls that ask for it and succeed**, whatever the interleaving,
and wherever calls fail or crash: between two states of a run neither its row changes, nor its
histories, nor its geometries, unless in between the unit of work of a call ends with a value that
updates or archives that parcel, sets its geometry reference, or submits a geometry of it. -/
theorem parcels_edited_by_calls (unique : tables.keys.Nodup)
    (before : World.Reaches (postgres ι) (backendWorld platform ctx call tables) w)
    (reaches : World.Reaches (postgres ι) w w') {parcelId : UUID}
    (present : ∃ record ∈ w.db.tables.parcels, record.parcelId = parcelId)
    (quiet : ∀ index a, (call index).Edits parcelId → (w'.task index).answer = some (.ok a) →
      (w.task index).answer = some (.ok a)) :
    w'.db.tables.ofParcel parcelId = w.db.tables.ofParcel parcelId := by
  obtain ⟨_, log, chronicle⟩ := chronicle_of_reaches unique before reaches
  refine chronicle.serial.induction
    (I := fun t => t.ofParcel parcelId = w.db.tables.ofParcel parcelId) ?_ ?_ rfl
  · intro t _ makes alone same
    obtain ⟨entry, rfl⟩ := alone
    refine (ofParcel_makes makes fun w member => ?_).trans same
    obtain rfl := List.mem_singleton.mp member
    simp [Write.parcel]
  · intro index result t ws logged makes accounts same
    refine (ofParcel_makes makes fun written member about => ?_).trans same
    obtain ⟨⟨a, rfl⟩, edits⟩ :=
      accounts.edits makes (present_of_ofParcel same present) member about
    obtain ⟨unanswered, answered⟩ := chronicle.answered _ logged
    rw [quiet index a edits answered] at unanswered
    cases unanswered

/-- **Archived parcels do not change**, whatever the interleaving, and wherever calls fail or
crash, as long as each UPDATE of a parcel finds the status that its transaction has read: a row
that is archived in one state of the run is in all later ones, with every column as it was. -/
theorem archived_parcels_unchanged (unique : tables.keys.Nodup)
    (before : World.Runs (postgres ι) (engine.freshly ReadsStatus)
      (backendWorld platform ctx call tables) w)
    (runs : World.Runs (postgres ι) (engine.freshly ReadsStatus) w w') {record : ParcelRecord}
    (member : record ∈ w.db.tables.parcels) (archived : record.status = .archived) :
    record ∈ w'.db.tables.parcels := by
  obtain ⟨_, log, chronicle⟩ := chronicle_of_runs unique before runs
  refine chronicle.serial.induction (I := fun t => record ∈ t.parcels) ?_ ?_ member
  · intro t _ makes alone member
    obtain ⟨entry, rfl⟩ := alone
    refine mem_parcels_makes makes archived (fun stored row written => ?_) member
    cases List.mem_singleton.mp written
  · intro index result t ws _ makes accounts member
    refine mem_parcels_makes makes archived (fun stored row written => ?_) member
    rcases accounts.registry with ⟨request, _, enters⟩ | foreign
    · exact enters.active written
    · exact absurd rfl (foreign _ written)

end Runs

/-- While the parcel of the first tenant is archived, nothing happens to that of the second. -/
theorem parcels_edited_by_calls_settlement : ∃ w a, World.Reaches (postgres Unit) settlement w ∧
    (w.task ()).answer = some (.ok a) ∧
    w.db.tables.ofParcel (sampleId 4) = villageTables.ofParcel (sampleId 4) := by
  obtain ⟨w, a, reaches, answered⟩ := settlement_reaches
  refine ⟨w, a, reaches, answered, parcels_edited_by_calls (by decide) .refl reaches
    (by decide +kernel) ?_⟩
  intro index a edits _
  have other : UUID.parse "00000000-0000-0000-0000-000000000001" ≠ some (sampleId 4) := by
    decide +kernel
  exact absurd edits other

/-- The settler archives a parcel twice. -/
def doubleArchival : World Bool DbStatement PyExc (ServiceAnswer ⊕ IdentityAnswer) (Database Bool)
    DbSession :=
  backendWorld servicePlatform (fun _ => settler)
    (fun _ => .service (.parcel (.archive "00000000-0000-0000-0000-000000000001"))) villageTables

/-- The second archival is answered, and leaves the row as the first has left it. -/
theorem archived_parcels_unchanged_twice : ∃ w w' record,
    World.Runs (postgres Bool) (engine.freshly ReadsStatus) doubleArchival w ∧
    World.Runs (postgres Bool) (engine.freshly ReadsStatus) w w' ∧
    (w'.task false).answer.isSome = true ∧ record.status = .archived ∧
    record ∈ w.db.tables.parcels ∧ record ∈ w'.db.tables.parcels := by
  have observed : World.Observed (postgres Bool) (engine.freshly ReadsStatus) doubleArchival
      (turns sampleNow true ((List.range 16).map fun i => sampleId (16 + i)))
      (turns sampleNow false ((List.range 4).map fun i => sampleId (40 + i)))
      (fun w w' => (w'.task false).answer.isSome = true ∧
        ∃ record ∈ w.db.tables.parcels, record.status = .archived) := by
    decide +kernel
  obtain ⟨w, w', before, runs, answered, record, member, archived⟩ := observed.runs
  exact ⟨w, w', record, before, runs, answered, archived, member,
    archived_parcels_unchanged (by decide) before runs member archived⟩

end LandVault
