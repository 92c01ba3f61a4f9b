import LandVault.Backend

/-!
# What a row never changes

Of every row some columns are written once: the identifier, the tenant, the creator, and of
a parcel its number. The repositories assign the number of a parcel in every update, from a
copy that may be stale; what is assigned is what the row has, since every copy that a
transaction holds is rooted in a row that is committed or that it has inserted itself, and
that row has had the number from the start.

The walk over a request keeps this beside what `Holding` keeps.
-/

set_option autoImplicit false

namespace LandVault

open Kernel Kernel.Audit Identity Registry Spatial Evidence Library.Programs
open Library.ReadCommitted Library.JsonText Python

/-! ## Frozen columns -/

namespace Entity

/-- A row, with the columns blanked that may change. -/
def frozen : (e : Entity) → e.Row → e.Row
  | .user, row =>
      { row with
        roles := [], accountStatus := .active, suspensionReason := none, lastLoginAt := none
        updatedAt := .now 0, version := 0 }
  | .tenant, row =>
      { row with
        name := "", status := .active, ownerUserId := none, suspensionReason := none
        suspendedAt := none, archivedAt := none, updatedAt := .now 0 }
  | .session, row => { row with status := .active, revokedAt := none, revokedReason := none }
  | .invitation, row => { row with status := .pending, acceptedAt := none, revokedAt := none }
  | .delegation, row =>
      { row with
        status := .active, expiresAt := none, revokedAt := none, revokedBy := none
        updatedAt := .now 0 }
  | .parcel, row =>
      { row with
        status := .active, title := none, address := none, state := none, lga := none
        ward := none, community := none, propertyType := none, sizeSqm := none
        ownershipType := none, currentOwnerName := none, currentOwnerContact := none
        updatedAt := .now 0, updatedBy := none, archivedAt := none, geometryReference := none }
  | .geometry, row => { row with status := .active, supersededAt := none }
  | .evidence, row =>
      { row with
        status := .received, sha256 := none, wormGrade := none, legalHold := false
        legalHoldReason := none, legalHoldBy := none }

theorem key_of_frozen {e : Entity} {row row' : e.Row} (same : e.frozen row' = e.frozen row) :
    e.mapper.key row' = e.mapper.key row := by
  have kept : ∀ row, e.mapper.key (e.frozen row) = e.mapper.key row := by
    intro row
    cases e <;> rfl
  rw [← kept row', same, kept row]

theorem parcelNumber_of_frozen {row row' : ParcelRecord}
    (same : frozen .parcel row' = frozen .parcel row) : row'.parcelNumber = row.parcelNumber := by
  have column := congrArg (fun row : ParcelRecord => row.parcelNumber) same
  exact column

/-- An edit that leaves what is frozen leaves it of the row that the UPDATE finds. -/
theorem frozen_merge {e : Entity} {loaded new : e.Row} (kept : e.frozen new = e.frozen loaded)
    (stored : e.Row) : e.frozen (e.mapper.merge loaded new stored) = e.frozen stored := by
  cases e with
  | parcel =>
      have number : new.parcelNumber = loaded.parcelNumber := parcelNumber_of_frozen kept
      simp [frozen, mapper, parcelMapper, ParcelRecord.merge, mergeColumn, number]
  | _ => rfl

end Entity

/-- An UPDATE of a row leaves the frozen columns as they are. -/
def Steady : Write → Prop
  | .updateParcel stored row => Entity.frozen .parcel row = Entity.frozen .parcel stored
  | .updateGeometry stored row => Entity.frozen .geometry row = Entity.frozen .geometry stored
  | .updateEvidence stored row => Entity.frozen .evidence row = Entity.frozen .evidence stored
  | .updateTenant stored row => Entity.frozen .tenant row = Entity.frozen .tenant stored
  | .updateUser stored row => Entity.frozen .user row = Entity.frozen .user stored
  | .updateSession stored row => Entity.frozen .session row = Entity.frozen .session stored
  | .updateInvitation stored row => Entity.frozen .invitation row = Entity.frozen .invitation stored
  | .updateDelegation stored row => Entity.frozen .delegation row = Entity.frozen .delegation stored
  | _ => True

theorem Entity.steady_update {e : Entity} {stored row : e.Row} :
    Steady (e.mapper.update stored row) ↔ e.frozen row = e.frozen stored := by
  cases e <;> exact .rfl

theorem Entity.steady_insert (e : Entity) (row : e.Row) : Steady (e.mapper.insert row) := by
  cases e <;> trivial

theorem Audits.steady {w : Write} (audits : Audits w) : Steady w := by
  obtain ⟨row, rfl⟩ := audits
  trivial

/-- Of the classes only a parcel has a column that is assigned and yet frozen. -/
theorem Preserves.steady {w : Write} (preserves : Preserves w) (other : w.context ≠ .registry) :
    Steady w := by
  have assigned : ∀ {R : Type} (assign : R → R → R) (frozen : R → R) {stored row : R},
      (∀ a b, frozen (assign a b) = frozen b) → row = assign row stored →
        frozen row = frozen stored := by
    intro R assign frozen stored row blanks same
    rw [same, blanks]
  cases w with
  | updateParcel stored row => exact absurd rfl other
  | updateGeometry stored row =>
      have kept := congrArg (Entity.frozen .geometry) preserves
      exact kept
  | updateEvidence stored row =>
      exact assigned Tables.assignEvidence (Entity.frozen .evidence) (fun _ _ => rfl) preserves
  | updateTenant stored row =>
      exact assigned Tables.assignTenant (Entity.frozen .tenant) (fun _ _ => rfl) preserves
  | updateUser stored row =>
      exact assigned Tables.assignUser (Entity.frozen .user) (fun _ _ => rfl) preserves
  | updateSession stored row =>
      exact assigned Tables.assignSession (Entity.frozen .session) (fun _ _ => rfl) preserves
  | updateInvitation stored row =>
      exact assigned Tables.assignInvitation (Entity.frozen .invitation) (fun _ _ => rfl) preserves
  | updateDelegation stored row =>
      exact assigned Tables.assignDelegation (Entity.frozen .delegation) (fun _ _ => rfl) preserves
  | _ => trivial

/-- What a parcel refers to is a geometry that is committed, of the parcel and its tenant, unless
the parcel had the reference in the tables `base`. -/
def Sited (base t : Tables) (parcel : ParcelRecord) : Prop :=
  ∀ reference ∈ parcel.geometryReference,
    (∃ geometry ∈ t.parcelGeometries, UUID.parse reference = some geometry.geometryId ∧
      geometry.parcelId = parcel.parcelId ∧ geometry.tenantId = parcel.tenantId) ∨
    ∃ old ∈ base.parcels, old.parcelId = parcel.parcelId ∧ old.geometryReference = some reference

/-- So of every parcel. No constraint of the schema says so. -/
def AllSited (base t : Tables) : Prop := ∀ parcel ∈ t.parcels, Sited base t parcel

theorem AllSited.start (t : Tables) : AllSited t t :=
  fun parcel member _ given => .inr ⟨parcel, member, rfl, given⟩

/-- The records of other classes refer to nothing. -/
def Entity.Sited (base t : Tables) : (e : Entity) → e.Row → Prop
  | .parcel, row => LandVault.Sited base t row
  | _, _ => True

/-- The parcel that is written is sited. -/
def Write.Sited (base t : Tables) : Write → Prop
  | .insertParcel row | .updateParcel _ row => LandVault.Sited base t row
  | _ => True

namespace Entity

variable {e : Entity} {base t : Tables}

theorem sited_insert {row : e.Row} : (e.mapper.insert row).Sited base t ↔ e.Sited base t row := by
  cases e <;> exact .rfl

theorem sited_update {stored row : e.Row} : (e.mapper.update stored row).Sited base t ↔ e.Sited base t row := by
  cases e <;> exact .rfl

/-- A column of the row that results is the one that the row had, or the one that is assigned. -/
theorem sited_merge {loaded new stored : e.Row} (named : e.mapper.key stored = e.mapper.key new)
    (owned : e.frozen stored = e.frozen new) (sited : e.Sited base t new) (before : e.Sited base t stored) :
    e.Sited base t (e.mapper.merge loaded new stored) := by
  cases e with
  | parcel =>
      have tenant : stored.tenantId = new.tenantId := by
        have column := congrArg (fun row : ParcelRecord => row.tenantId) owned
        exact column
      intro reference given
      change reference ∈ mergeColumn loaded.geometryReference new.geometryReference
        stored.geometryReference at given
      unfold mergeColumn at given
      split at given
      · exact before reference given
      · rcases sited reference given with ⟨geometry, member, parsed, parcel, owner⟩ |
          ⟨old, member, id, same⟩
        · exact .inl ⟨geometry, member, parsed, parcel.trans named.symm, owner.trans tenant.symm⟩
        · exact .inr ⟨old, member, id.trans named.symm, same⟩
  | _ => trivial

end Entity

/-- Transactions that leave what is frozen. -/
abbrev steadily : Discipline engine := committing (fun ws => ∀ w ∈ ws, Steady w) (by simp)

/-! ## Rows, and what they were -/

section Rows

variable {e : Entity} {base t t' : Tables} {w : Write} {ws : List Write}

/-- A row stays in its table, and so do its frozen columns. -/
theorem frozen_forward (unique : t.keys.Nodup) (stands : Stands t w) (steady : Steady w)
    {row : e.Row} (member : row ∈ e.mapper.rows t) :
    ∃ row' ∈ e.mapper.rows (t.apply w), e.frozen row' = e.frozen row := by
  rcases e.write_cases w with same | ⟨new, rfl⟩ | ⟨stored, new, rfl⟩
  · exact ⟨row, by rwa [same], rfl⟩
  · rw [Entity.rows_insert]
    exact ⟨row, List.mem_append_left _ member, rfl⟩
  · obtain ⟨present, named⟩ := Entity.stands_update.mp stands
    have kept := Entity.steady_update.mp steady
    rw [Entity.rows_update]
    refine ⟨_, List.mem_map_of_mem member, ?_⟩
    split
    · rename_i same
      obtain rfl : row = stored :=
        List.inj_on_of_nodup_map (e.keys_nodup unique) member present (same.trans named)
      cases e with
      | parcel | geometry => exact kept
      | _ => rfl
    · rfl

/-- A row of a table was there before the write, but for its columns that may change, or it
is what the write has inserted. -/
theorem frozen_backward (stands : Stands t w) (steady : Steady w) {row : e.Row}
    (member : row ∈ e.mapper.rows (t.apply w)) :
    (∃ row' ∈ e.mapper.rows t, e.frozen row' = e.frozen row) ∨ w = e.mapper.insert row := by
  rcases e.write_cases w with same | ⟨new, rfl⟩ | ⟨stored, new, rfl⟩
  · exact .inl ⟨row, by rwa [same] at member, rfl⟩
  · rw [Entity.rows_insert] at member
    rcases List.mem_append.mp member with old | added
    · exact .inl ⟨row, old, rfl⟩
    · exact .inr (by rw [List.mem_singleton.mp added])
  · obtain ⟨present, named⟩ := Entity.stands_update.mp stands
    have kept := Entity.steady_update.mp steady
    rw [Entity.rows_update] at member
    obtain ⟨old, there, rfl⟩ := List.mem_map.mp member
    refine .inl ?_
    split
    · cases e with
      | parcel | geometry => exact ⟨stored, present, kept.symm⟩
      | _ => exact ⟨old, there, rfl⟩
    · exact ⟨old, there, rfl⟩

/-- What is committed leaves what is frozen. -/
theorem steady_makes (makes : steadily.Makes t ws) : ∀ w ∈ ws, Steady w := by
  rcases makes.allowed with batch | ⟨w, rfl, audits⟩
  · exact batch
  · intro w' member
    rw [List.mem_singleton.mp member]
    exact Audits.steady audits

/-- The frozen columns of a committed row are those of a row ever after. -/
theorem frozen_of_advances (advances : steadily.Advances t t') {row : e.Row}
    (member : row ∈ e.mapper.rows t) :
    ∃ row' ∈ e.mapper.rows t', e.frozen row' = e.frozen row := by
  refine advances.induction (I := fun u => ∃ row' ∈ e.mapper.rows u, e.frozen row' = e.frozen row)
    (fun u ws makes found => ?_) ⟨row, member, rfl⟩
  refine makes.induction (I := fun u => ∃ row' ∈ e.mapper.rows u, e.frozen row' = e.frozen row)
    (fun u w member unique stands found => ?_) found
  obtain ⟨row', present, same⟩ := found
  obtain ⟨row'', present', same'⟩ :=
    frozen_forward unique stands (steady_makes makes w member) present
  exact ⟨row'', present', same'.trans same⟩

theorem sited_of_advances (advances : steadily.Advances t t') {row : e.Row} (sited : e.Sited base t row) :
    e.Sited base t' row := by
  cases e with
  | parcel =>
      intro reference given
      refine (sited reference given).imp_left fun ⟨geometry, member, parsed, parcel, owner⟩ => ?_
      obtain ⟨geometry', member', same⟩ := frozen_of_advances (e := .geometry) advances member
      have columns := congrArg (fun row : ParcelGeometryRecord =>
        (row.geometryId, row.parcelId, row.tenantId)) same
      change (geometry'.geometryId, geometry'.parcelId, geometry'.tenantId) =
        (geometry.geometryId, geometry.parcelId, geometry.tenantId) at columns
      simp only [Prod.mk.injEq] at columns
      obtain ⟨id, parcelId, tenantId⟩ := columns
      exact ⟨geometry', member', id ▸ parsed, parcelId.trans parcel, tenantId.trans owner⟩
  | _ => trivial

theorem Write.Sited.later (sited : w.Sited base t) (advances : steadily.Advances t t') : w.Sited base t' := by
  cases w with
  | insertParcel row => exact sited_of_advances (e := .parcel) advances sited
  | updateParcel stored row => exact sited_of_advances (e := .parcel) advances sited
  | _ => trivial

/-- A record is of a row that is committed, or of one that its transaction has inserted. -/
def Stems (e : Entity) (t : Tables) (ws : List Write) (record : e.Row) : Prop :=
  (∃ row ∈ e.mapper.rows t, e.frozen row = e.frozen record) ∨
    ∃ row, e.mapper.insert row ∈ ws ∧ e.frozen row = e.frozen record

/-- The parcel is committed, under this tenant. -/
def OnRegister (t : Tables) (parcelId : UUID) (tenantId : String) : Prop :=
  ∃ parcel ∈ t.parcels, parcel.parcelId = parcelId ∧ parcel.tenantId = tenantId

/-- A record that stems from a row, and is sited. -/
structure Rooted (base : Tables) (e : Entity) (t : Tables) (ws : List Write) (record : e.Row) : Prop where
  stems : Stems e t ws record
  sited : e.Sited base t record

theorem Rooted.later {record : e.Row} (rooted : Rooted base e t ws record)
    (advances : steadily.Advances t t') : Rooted base e t' ws record := by
  refine ⟨rooted.stems.imp_left fun ⟨row, member, same⟩ => ?_, sited_of_advances advances rooted.sited⟩
  obtain ⟨row', member', same'⟩ := frozen_of_advances advances member
  exact ⟨row', member', same'.trans same⟩

theorem Rooted.more {record : e.Row} (rooted : Rooted base e t ws record) (more : List Write) :
    Rooted base e t (ws ++ more) record :=
  ⟨rooted.stems.imp_right fun ⟨row, member, same⟩ => ⟨row, List.mem_append_left _ member, same⟩,
    rooted.sited⟩

theorem Rooted.registered {record : ParcelRecord} (rooted : Rooted base .parcel t [] record) :
    OnRegister t record.parcelId record.tenantId := by
  rcases rooted.stems with ⟨row, member, same⟩ | ⟨_, absurd, _⟩
  · have columns := congrArg (fun row : ParcelRecord => (row.parcelId, row.tenantId)) same
    change (row.parcelId, row.tenantId) = (record.parcelId, record.tenantId) at columns
    simp only [Prod.mk.injEq] at columns
    exact ⟨row, member, columns⟩
  · cases absurd

theorem Rooted.of_frozen {record record' : e.Row} (rooted : Rooted base e t ws record)
    (same : e.frozen record' = e.frozen record) (sited : e.Sited base t record') :
    Rooted base e t ws record' := by
  refine ⟨?_, sited⟩
  unfold Stems
  rw [same]
  exact rooted.stems

/-- What a record stems from is a row that the transaction may see. -/
theorem Stems.viewed {record : e.Row} (stems : Stems e t ws record)
    (grounded : steadily.Grounded t ws) (unique : t.keys.Nodup) (steady : ∀ w ∈ ws, Steady w) :
    ∃ row ∈ e.mapper.rows (engine.applyAll t ws), e.frozen row = e.frozen record := by
  induction ws generalizing t with
  | nil =>
      rcases stems with found | ⟨row, absurd, _⟩
      · exact found
      · cases absurd
  | cons w ws ih =>
      obtain ⟨⟨absent, stands⟩, rest⟩ := grounded
      refine ih ?_ rest (engine.keys_apply_nodup unique absent)
        fun w member => steady w (List.mem_cons_of_mem _ member)
      rcases stems with ⟨row, member, same⟩ | ⟨row, member, same⟩
      · obtain ⟨row', member', same'⟩ :=
          frozen_forward unique stands (steady w List.mem_cons_self) member
        exact .inl ⟨row', member', same'.trans same⟩
      · rcases List.mem_cons.mp member with rfl | later
        · refine .inl ⟨row, ?_, same⟩
          exact (Entity.rows_insert e t row).symm ▸ List.mem_append_right _ (List.mem_singleton_self _)
        · exact .inr ⟨row, later, same⟩

theorem stems_of_viewed {row : e.Row} (grounded : steadily.Grounded t ws)
    (unique : t.keys.Nodup) (steady : ∀ w ∈ ws, Steady w)
    (member : row ∈ e.mapper.rows (engine.applyAll t ws)) : Stems e t ws row := by
  induction ws generalizing t with
  | nil => exact .inl ⟨row, member, rfl⟩
  | cons w ws ih =>
      obtain ⟨⟨absent, stands⟩, rest⟩ := grounded
      have before := ih rest (engine.keys_apply_nodup unique absent)
        (fun w member => steady w (List.mem_cons_of_mem _ member)) member
      rcases before with ⟨row', member', same⟩ | ⟨row', member', same⟩
      · rcases frozen_backward stands (steady w List.mem_cons_self) member' with
          ⟨row'', member'', same'⟩ | rfl
        · exact .inl ⟨row'', member'', same'.trans same⟩
        · exact .inr ⟨row', List.mem_cons_self, same⟩
      · exact .inr ⟨row', List.mem_cons_of_mem _ member', same⟩

/-- A row after a write: it was there, or it is what has been written. -/
theorem Entity.row_apply {row : e.Row} (member : row ∈ e.mapper.rows (t.apply w)) :
    row ∈ e.mapper.rows t ∨ w = e.mapper.insert row ∨
      ∃ stored new, w = e.mapper.update stored new ∧ ∃ old ∈ e.mapper.rows t,
        e.mapper.key old = e.mapper.key new ∧ row = e.mapper.assign new old := by
  rcases e.write_cases w with same | ⟨new, rfl⟩ | ⟨stored, new, rfl⟩
  · exact .inl (by rwa [same] at member)
  · rw [Entity.rows_insert] at member
    rcases List.mem_append.mp member with old | added
    · exact .inl old
    · exact .inr (.inl (by rw [List.mem_singleton.mp added]))
  · rw [Entity.rows_update] at member
    obtain ⟨old, there, rfl⟩ := List.mem_map.mp member
    split
    · rename_i named
      exact .inr (.inr ⟨stored, new, rfl, old, there, named, rfl⟩)
    · exact .inl there

/-- What a transaction sees is sited, if what is committed is, and what it writes. -/
theorem sited_of_viewed {row : e.Row} (sited : AllSited base t) (written : ∀ w ∈ ws, w.Sited base t)
    (member : row ∈ e.mapper.rows (engine.applyAll t ws)) : e.Sited base t row := by
  cases e with
  | parcel =>
      suffices kept : ∀ u, (∀ parcel ∈ u.parcels, LandVault.Sited base t parcel) →
          (∀ w ∈ ws, w.Sited base t) →
          ∀ parcel ∈ (engine.applyAll u ws).parcels, LandVault.Sited base t parcel from
        kept t sited written row member
      clear sited written member
      induction ws with
      | nil => exact fun _ sited _ => sited
      | cons w ws ih =>
          intro u sited written
          refine ih (u.apply w) (fun parcel member => ?_)
            fun w member => written w (List.mem_cons_of_mem _ member)
          have mine := written w List.mem_cons_self
          rcases Entity.row_apply (e := .parcel) member with old | rfl | ⟨_, _, rfl, _, _, _, rfl⟩
          · exact sited parcel old
          · exact mine
          · exact mine
  | _ => trivial

/-- Two records of one row agree on what is frozen. -/
theorem Rooted.agree {record record' : e.Row} (rooted : Rooted base e t ws record)
    (rooted' : Rooted base e t ws record') (grounded : steadily.Grounded t ws) (unique : t.keys.Nodup)
    (steady : ∀ w ∈ ws, Steady w) (viewed : (engine.applyAll t ws).keys.Nodup)
    (same : e.mapper.key record' = e.mapper.key record) : e.frozen record' = e.frozen record := by
  obtain ⟨row, member, frozen⟩ := rooted.stems.viewed grounded unique steady
  obtain ⟨row', member', frozen'⟩ := rooted'.stems.viewed grounded unique steady
  have one : row' = row := List.inj_on_of_nodup_map (e.keys_nodup viewed) member' member <| by
    rw [Entity.key_of_frozen frozen, Entity.key_of_frozen frozen', same]
  rw [← frozen, ← frozen', one]

end Rows

/-! ## Walks -/

/-- A transaction knows `known` and every record of its identity map, and the records are
rooted. -/
structure Remembers (base t : Tables) (ws : List Write) (known : List Read) (memo : Memo) : Prop where
  knows : Knows known memo
  rooted : ∀ (e : Entity), ∀ record ∈ e.mapper.loaded memo, Rooted base e t ws record

namespace Remembers

variable {base t t' : Tables} {ws : List Write} {known : List Read} {memo : Memo}

theorem fresh : Remembers base t ws [] ({} : Memo) :=
  ⟨.fresh, fun e row member => by cases e <;> cases member⟩

theorem scope (remembers : Remembers base t ws known memo) (scope : Scope) :
    Remembers base t ws known { memo with scope } := by
  refine ⟨remembers.knows.scope scope, fun e row member => ?_⟩
  have same : e.mapper.loaded { memo with scope } = e.mapper.loaded memo := by cases e <;> rfl
  exact remembers.rooted e row (same ▸ member)

theorem read (remembers : Remembers base t ws known memo) (reads : List Read) :
    Remembers base t ws (reads ++ known) { memo with reads := reads ++ memo.reads } := by
  refine ⟨remembers.knows.read reads, fun e row member => ?_⟩
  rw [e.loaded_reads] at member
  exact remembers.rooted e row member

theorem keep (remembers : Remembers base t ws known memo) {e : Entity} {row : e.Row}
    (rooted : Rooted base e t ws row) :
    Remembers base t ws (e.mapper.noted row :: known) (e.mapper.keep row memo) := by
  refine ⟨remembers.knows.keep row, fun e' other member => ?_⟩
  by_cases mine : e' = e
  · subst mine
    rcases Entity.mem_loaded_keep.mp member with rfl | ⟨old, _⟩
    · exact rooted
    · exact remembers.rooted _ other old
  · rw [Entity.loaded_keep_of_ne mine] at member
    exact remembers.rooted e' other member

theorem mono {less : List Read} (remembers : Remembers base t ws known memo) (fewer : less ⊆ known) :
    Remembers base t ws less memo :=
  ⟨remembers.knows.mono fewer, remembers.rooted⟩

theorem later (remembers : Remembers base t ws known memo) (advances : steadily.Advances t t') :
    Remembers base t' ws known memo :=
  ⟨remembers.knows, fun e record member => (remembers.rooted e record member).later advances⟩

theorem more (remembers : Remembers base t ws known memo) (more : List Write) :
    Remembers base t (ws ++ more) known memo :=
  ⟨remembers.knows, fun e record member => (remembers.rooted e record member).more more⟩

/-- Loading rows keeps what is known, and notes their records. -/
theorem found (remembers : Remembers base t ws known memo) {e : Entity} {v : View Tables Memo Env}
    (loaded : ∀ row ∈ e.mapper.loaded v.memo, e.mapper.noted row ∈ memo.reads) (rows : List e.Row)
    (rooted : ∀ row ∈ rows, Rooted base e t ws row) :
    Remembers base t ws (rows.map (e.mapper.noted ∘ e.mapper.record v) ++ known)
      (rows.foldl (e.mapper.found v) memo) := by
  refine ⟨remembers.knows.found loaded rows, ?_⟩
  have old := remembers.rooted
  clear loaded remembers
  induction rows generalizing memo with
  | nil => exact old
  | cons row rows ih =>
      refine ih (fun row member => rooted row (List.mem_cons_of_mem _ member)) ?_
      intro e' other member
      unfold Mapper.found at member
      split at member
      · exact old e' other member
      · by_cases mine : e' = e
        · subst mine
          rcases Entity.mem_loaded_keep.mp member with rfl | ⟨present, _⟩
          · exact rooted _ List.mem_cons_self
          · exact old _ other present
        · rw [Entity.loaded_keep_of_ne mine] at member
          exact old e' other member

end Remembers

/-- How far a transaction is: what it has pending, what it remembers, and a fact about the
committed tables. So far its program has committed audit entries only. -/
structure Tracking {ι : Type} (base : Tables) (F : Tables → Prop) (known : List Read) (ws : List Write)
    (db : Database ι) (s : DbSession) : Prop where
  pending : s.pending = ws
  remembers : Remembers base db.tables ws known s.memo
  steady : ∀ w ∈ ws, Steady w
  sited : ∀ w ∈ ws, w.Sited base db.tables
  durable : ∀ w ∈ s.durable, Audits w
  fact : F db.tables

/-- What a statement of such a transaction sees. -/
structure Looking {ι : Type} (base : Tables) (F : Tables → Prop) (known : List Read) (ws : List Write)
    (db : Database ι) (s : DbSession) (v : View Tables Memo Env) : Prop where
  tables : v.tables = engine.applyAll db.tables ws
  memo : v.memo = s.memo
  remembers : Remembers base db.tables ws known v.memo
  unique : v.tables.keys.Nodup
  committed : db.tables.keys.Nodup
  grounded : steadily.Grounded db.tables ws
  steady : ∀ w ∈ ws, Steady w
  sited : ∀ w ∈ ws, w.Sited base db.tables
  committed_sited : AllSited base db.tables
  fact : F db.tables

/-- What a request ends with that leaves what is frozen, whatever the others do, in a run
whose writes are `fresh`, while every parcel is sited. -/
abbrev Tracks {ι α : Type} [DecidableEq ι] (base : Tables)
    (fresh : Tables → Memo → Write → Prop) (index : ι) (Q : α → Assertion (Database ι) DbSession)
    (X : PyExc → Assertion (Database ι) DbSession) (request : Request α) :
    Assertion (Database ι) DbSession :=
  Meets (engine.amid fresh (AllSited base)) (fun _ => True) steadily.contract index Q X request

/-- An error that is answered leaves nothing pending. -/
def Voids {ι : Type} (e : PyExc) : Assertion (Database ι) DbSession :=
  fun _ s => e.isHttp = true → s.pending = []

theorem tolerant_voids {ι : Type} : Tolerant (Voids : PyExc → Assertion (Database ι) DbSession) :=
  fun _ _ _ other answer => absurd answer (by simp [other])

section Rules

variable {ι α : Type} {index : ι} {base : Tables}
  {fresh : Tables → Memo → Write → Prop} {F : Tables → Prop} {known : List Read} {ws : List Write} {db : Database ι} {s : DbSession}
  {Q : α → Assertion (Database ι) DbSession} {X : PyExc → Assertion (Database ι) DbSession}

theorem Tracking.mono {less : List Read} (tracking : Tracking base F known ws db s)
    (fewer : less ⊆ known) : Tracking base F less ws db s :=
  ⟨tracking.pending, tracking.remembers.mono fewer, tracking.steady, tracking.sited,
    tracking.durable, tracking.fact⟩

theorem Tracking.later {db' : Database ι} (tracking : Tracking base F known ws db s)
    (lasting : Lasting steadily F) (advances : steadily.Advances db.tables db'.tables) :
    Tracking base F known ws db' s :=
  ⟨tracking.pending, tracking.remembers.later advances, tracking.steady,
    fun w member => (tracking.sited w member).later advances, tracking.durable,
    lasting _ _ advances tracking.fact⟩

/-- A fact that holds besides, and lasts. -/
theorem Tracking.and {G : Tables → Prop} (tracking : Tracking base F known ws db s) (fact : G db.tables) :
    Tracking base (fun t => F t ∧ G t) known ws db s :=
  ⟨tracking.pending, tracking.remembers, tracking.steady, tracking.sited, tracking.durable,
    tracking.fact, fact⟩

theorem Tracking.weaken {G : Tables → Prop} (tracking : Tracking base F known ws db s)
    (weaker : ∀ t, F t → G t) : Tracking base G known ws db s :=
  ⟨tracking.pending, tracking.remembers, tracking.steady, tracking.sited, tracking.durable,
    weaker _ tracking.fact⟩

theorem Looking.agree {v : View Tables Memo Env} (looking : Looking base F known ws db s v) {e : Entity}
    {record record' : e.Row} (rooted : Rooted base e db.tables ws record)
    (rooted' : Rooted base e db.tables ws record') (same : e.mapper.key record' = e.mapper.key record) :
    e.frozen record' = e.frozen record :=
  rooted.agree rooted' looking.grounded looking.committed looking.steady
    (looking.tables ▸ looking.unique) same

/-- A row that the statement sees. -/
theorem Looking.rooted {v : View Tables Memo Env} (looking : Looking base F known ws db s v) {e : Entity}
    {row : e.Row} (viewed : row ∈ e.mapper.rows (engine.applyAll db.tables ws)) :
    Rooted base e db.tables ws row :=
  ⟨stems_of_viewed looking.grounded looking.committed looking.steady viewed,
    sited_of_viewed looking.committed_sited looking.sited viewed⟩

variable [DecidableEq ι]

theorem Lasting.and {D : Discipline engine} {F G : Tables → Prop} (first : Lasting D F)
    (second : Lasting D G) : Lasting D fun t => F t ∧ G t :=
  fun t t' advances holds => ⟨first t t' advances holds.1, second t t' advances holds.2⟩

theorem lasting_rooted (base : Tables) (e : Entity) (ws : List Write) (record : e.Row) :
    Lasting steadily fun t => Rooted base e t ws record :=
  fun _ _ advances rooted => rooted.later advances

theorem lasting_registered (parcelId : UUID) (tenantId : String) :
    Lasting steadily fun t => OnRegister t parcelId tenantId := by
  rintro t t' advances ⟨parcel, member, id, tenant⟩
  obtain ⟨parcel', member', same⟩ := frozen_of_advances (e := .parcel) advances member
  have columns := congrArg (fun row : ParcelRecord => (row.parcelId, row.tenantId)) same
  change (parcel'.parcelId, parcel'.tenantId) = (parcel.parcelId, parcel.tenantId) at columns
  simp only [Prod.mk.injEq] at columns
  exact ⟨parcel', member', columns.1.trans id, columns.2.trans tenant⟩

/-- One statement of the transaction: what it reads joins what is known, what it writes
has to stand and joins what is pending. -/
theorem Tracking.query (tracking : Tracking base F known ws db s) (lasting : Lasting steadily F)
    (tolerant : Tolerant X) {run : View Tables Memo Env → Except PyExc (Effect Write Memo PyExc α)}
    (errors : ∀ v e, (run v = .error e ∨ ∃ memo w, run v = .ok ⟨memo, .error e, w⟩) →
      e.isHttp = false)
    (read : ∀ (db₁ : Database ι) v memo a, Looking base F known ws db₁ s v →
      run v = .ok ⟨memo, .ok a, none⟩ → ∃ known', Remembers base db₁.tables ws known' memo ∧
        ∀ db' s', db'.tables = db₁.tables → Tracking base F known' ws db' s' → Q a db' s')
    (wrote : ∀ (db₁ : Database ι) v memo a w, Looking base F known ws db₁ s v →
      run v = .ok ⟨memo, .ok a, some w⟩ → fresh v.tables v.memo w →
      Stands v.tables w ∧ Steady w ∧ w.Sited base db₁.tables ∧
        ∃ known', Remembers base db₁.tables (ws ++ [w]) known' memo ∧
        ∀ db' s', db'.tables = db₁.tables → Tracking base F known' (ws ++ [w]) db' s' → Q a db' s') :
    Tracks base fresh index Q X (.perform (.query run)) db s := by
  have looking : ∀ {db₁ : Database ι} (startedAt : Nat) (env : Env),
      steadily.Turn Env index db s db₁ → AllSited base db₁.tables →
      Looking base F known ws db₁ s ⟨engine.view db₁ s, s.memo, startedAt, env⟩ := by
    intro db₁ startedAt env turn sited
    have grounded := turn.follows.grounded
    rw [tracking.pending] at grounded
    have later := tracking.later lasting turn.advances
    exact ⟨by rw [Engine.view, tracking.pending], rfl, later.remembers, turn.follows.held.unique,
      turn.coherent.unique, grounded, tracking.steady, later.sited, sited, later.fact⟩
  have kept : ∀ {db₁ db' : Database ι}, steadily.Turn Env index db s db₁ →
      db'.tables = db₁.tables → (∀ w ∈ ws, w.Sited base db'.tables) ∧ F db'.tables := by
    intro db₁ db' turn same
    have later := tracking.later lasting turn.advances
    exact same ▸ ⟨later.sited, later.fact⟩
  have opened : ∀ now, (s.opened now).durable = s.durable := by
    intro now
    unfold Session.opened
    split <;> rfl
  refine Discipline.meets_query_admitted (fun db₁ turn broken => tolerant _ _ _ rfl) ?_ ?_ ?_
  · intro db₁ db' now env e w turn same raised
    refine tolerant _ _ _ ?_
    cases raised with
    | disconnected => rfl
    | run raised => exact errors _ e (.inl raised)
    | answer raised => exact errors _ e (.inr ⟨_, _, raised⟩)
    | violation => rfl
  · intro db₁ db' now env memo a turn same whole admitted ran
    obtain ⟨_, _, _, _, sited⟩ := admitted
    obtain ⟨known', remembers, holds⟩ := read db₁ _ memo a (looking _ env turn sited) ran
    exact holds db' _ same ⟨by simpa using tracking.pending, same ▸ remembers, tracking.steady,
      (kept turn same).1, by simpa [opened] using tracking.durable, (kept turn same).2⟩
  · intro db₁ db' now env memo a w turn same whole admitted ran
    obtain ⟨choice, rfl, rfl, admitted, sited⟩ := admitted
    have admits : fresh (engine.view db₁ s) s.memo w := by
      simp only [Engine.freshly, ran] at admitted
      exact admitted
    obtain ⟨stands, steady, placed, known', remembers, holds⟩ :=
      wrote db₁ _ memo a w (looking _ _ turn sited) ran admits
    refine ⟨stands, holds db' _ same ⟨by simp [tracking.pending], same ▸ remembers, ?_, ?_,
      by simpa [opened] using tracking.durable, (kept turn same).2⟩⟩
    · intro w' member
      rcases List.mem_append.mp member with old | new
      · exact tracking.steady w' old
      · exact List.mem_singleton.mp new ▸ steady
    · intro w' member
      rcases List.mem_append.mp member with old | new
      · exact (kept turn same).1 w' old
      · rw [same]
        exact List.mem_singleton.mp new ▸ placed

theorem Tracking.choose (tracking : Tracking base F known ws db s) (lasting : Lasting steadily F)
    (pick : Env → α) :
    Tracks base fresh index (fun _ => Tracking base F known ws) X (LandVault.choose pick) db s :=
  Discipline.meets_choose fun _ _ turn => tracking.later lasting turn.advances

/-! ### Mapped classes -/

theorem Tracking.get (tracking : Tracking base F known ws db s) (lasting : Lasting steadily F)
    (tolerant : Tolerant X) (e : Entity) (key : e.Id) :
    Tracks base fresh index
      (fun found db s => Tracking base F (found.toList.map e.mapper.noted ++ known) ws db s ∧
        ∀ row ∈ found, e.mapper.key row = key ∧ Rooted base e db.tables ws row ∧
          ∀ other, Rooted base e db.tables ws other → e.mapper.key other = key →
            e.frozen other = e.frozen row)
      X (e.mapper.get key) db s := by
  refine tracking.query lasting tolerant ?_ ?_ ?_
  · rintro v error (raised | ⟨memo, w, raised⟩) <;> grind
  · intro db₁ v memo found looking ran
    split at ran
    · rename_i record mapped
      cases ran
      unfold Mapper.mapped at mapped
      split at mapped
      · cases mapped
      have member := List.mem_of_find?_eq_some mapped
      have named : e.mapper.key record = key := by simpa using List.find?_some mapped
      have rooted := looking.remembers.rooted e record member
      refine ⟨e.mapper.noted record :: known, ⟨⟨looking.remembers.knows.loaded, ?_⟩,
        looking.remembers.rooted⟩, ?_⟩
      · exact List.cons_subset.mpr
          ⟨looking.remembers.knows.loaded e record member, looking.remembers.knows.known⟩
      · intro db' s' same tracking
        refine ⟨tracking, fun row found => ?_⟩
        cases found
        rw [same]
        exact ⟨named, rooted, fun other also alike =>
          looking.agree rooted also (alike.trans named.symm)⟩
    · split at ran
      · rename_i row found
        cases ran
        have named : e.mapper.key row = key := by simpa using List.find?_some found
        have viewed : row ∈ e.mapper.rows (engine.applyAll db₁.tables ws) :=
          looking.tables ▸ List.mem_of_mem_filter (List.mem_of_find?_eq_some found)
        have rooted := looking.rooted viewed
        refine ⟨_, looking.remembers.keep rooted, fun db' s' same tracking => ?_⟩
        refine ⟨tracking, fun row found => ?_⟩
        cases found
        rw [same]
        exact ⟨named, rooted, fun other also alike =>
          looking.agree rooted also (alike.trans named.symm)⟩
      · cases ran
        exact ⟨_, looking.remembers, fun db' s' _ tracking =>
          ⟨tracking, fun row absurd => by cases absurd⟩⟩
  · intro db₁ v memo a w _ ran
    grind

/-- A SELECT answers rows, or what the identity map has in their place: a record of the row. -/
theorem Tracking.select (tracking : Tracking base F known ws db s) (lasting : Lasting steadily F)
    (tolerant : Tolerant X) (e : Entity) (condition : e.Row → Bool) :
    Tracks base fresh index
      (fun records db' s' => Tracking base F (records.map e.mapper.noted ++ known) ws db' s' ∧
        ∀ record ∈ records, Rooted base e db'.tables ws record ∧
          ∃ row ∈ e.mapper.rows (engine.applyAll db'.tables ws), condition row = true ∧
            e.frozen record = e.frozen row)
      X (e.mapper.select condition) db s := by
  refine tracking.query lasting tolerant ?_ ?_ ?_
  · rintro v error (raised | ⟨memo, w, raised⟩) <;> cases raised
  · intro db₁ v memo records looking ran
    cases ran
    have rooted : ∀ row ∈ (e.mapper.seen v.tables v.memo.scope).filter condition,
        Rooted base e db₁.tables ws row := by
      intro row member
      have viewed : row ∈ e.mapper.rows (engine.applyAll db₁.tables ws) :=
        looking.tables ▸ List.mem_of_mem_filter (List.mem_of_mem_filter member)
      exact looking.rooted viewed
    refine ⟨_, looking.remembers.found (looking.remembers.knows.loaded e) _ rooted,
      fun db' s' same tracking => ?_⟩
    rw [List.map_map]
    refine ⟨tracking, fun record member => ?_⟩
    obtain ⟨row, found, rfl⟩ := List.mem_map.mp member
    obtain ⟨visible, holds⟩ := List.mem_filter.mp found
    have viewed : row ∈ e.mapper.rows (engine.applyAll db₁.tables ws) :=
      looking.tables ▸ List.mem_of_mem_filter visible
    rw [same]
    unfold Mapper.record
    cases mapped : e.mapper.mapped v (e.mapper.key row) with
    | none => exact ⟨rooted row found, row, viewed, holds, rfl⟩
    | some record =>
        unfold Mapper.mapped at mapped
        split at mapped
        · cases mapped
        · have present := looking.remembers.rooted e record (List.mem_of_find?_eq_some mapped)
          have named : e.mapper.key record = e.mapper.key row := by
            simpa using List.find?_some mapped
          exact ⟨present, row, viewed, holds, looking.agree (rooted row found) present named⟩
  · intro db₁ v memo records w _ ran
    cases ran

theorem Tracking.scalarOneOrNone (tracking : Tracking base F known ws db s)
    (lasting : Lasting steadily F) (tolerant : Tolerant X) (e : Entity) (condition : e.Row → Bool) :
    Tracks base fresh index
      (fun found db' s' => Tracking base F (found.toList.map e.mapper.noted ++ known) ws db' s' ∧
        ∀ record ∈ found, Rooted base e db'.tables ws record ∧
          ∃ row ∈ e.mapper.rows (engine.applyAll db'.tables ws), condition row = true ∧
            e.frozen record = e.frozen row)
      X (e.mapper.scalarOneOrNone condition) db s := by
  refine (tracking.select lasting tolerant e condition).bind ?_
  rintro records db s ⟨tracking, found⟩
  match records with
  | [] => exact ⟨tracking, nofun⟩
  | [record] => exact ⟨tracking, fun _ same => by cases same; exact found _ List.mem_cons_self⟩
  | _ :: _ :: _ => exact tolerant _ _ _ rfl

/-- A new row. -/
theorem Tracking.add (tracking : Tracking base F known ws db s) (lasting : Lasting steadily F)
    (tolerant : Tolerant X) (e : Entity) (row : View Tables Memo Env → e.Row)
    (sited : ∀ t v, e.Sited base t (row v)) :
    Tracks base fresh index
      (fun added db' s' => Tracking base F (e.mapper.noted added :: known)
          (ws ++ [e.mapper.insert added]) db' s' ∧
        ∃ v, added = row v ∧ v.tables = engine.applyAll db'.tables ws ∧ v.memo = s.memo ∧
          e.mapper.foreign v.tables added = .ok () ∧ v.tables.keys.Nodup ∧
          fresh v.tables v.memo (e.mapper.insert added))
      X (e.mapper.add row) db s := by
  refine tracking.query lasting tolerant ?_ ?_ ?_
  · rintro v error (raised | ⟨memo, w, raised⟩)
    · rcases bind_eq_error raised with failed | ⟨_, _, failed⟩
      · exact e.values_notHttp failed
      · split at failed
        · cases failed
        · cases failed
          rfl
    · obtain ⟨_, _, ran⟩ := bind_eq_ok raised
      split at ran
      · simp only [Except.ok.injEq, Effect.mk.injEq] at ran
        exact e.foreign_notHttp (map_eq_error ran.2.1)
      · cases ran
  · intro db₁ v memo added _ ran
    obtain ⟨_, _, ran⟩ := bind_eq_ok ran
    split at ran
    · simp only [Except.ok.injEq, Effect.mk.injEq, reduceCtorEq, and_false] at ran
    · cases ran
  · intro db₁ v memo added w looking ran admitted
    obtain ⟨_, _, ran⟩ := bind_eq_ok ran
    split at ran
    · simp only [Except.ok.injEq, Effect.mk.injEq, Option.some.injEq] at ran
      obtain ⟨rfl, answered, rfl⟩ := ran
      obtain ⟨_, foreign, rfl⟩ := map_eq_ok answered
      have rooted : Rooted base e db₁.tables (ws ++ [e.mapper.insert (row v)]) (row v) :=
        ⟨.inr ⟨row v, List.mem_append_right _ (List.mem_singleton_self _), rfl⟩, sited _ v⟩
      refine ⟨e.stands_insert _ _, e.steady_insert _, Entity.sited_insert.mpr (sited _ v), _, (looking.remembers.more _).keep rooted,
        fun db' s' same tracking => ?_⟩
      exact ⟨tracking, v, rfl, same ▸ looking.tables, looking.memo, foreign, looking.unique, admitted⟩
    · cases ran

/-- A flush of a record whose frozen columns are kept. -/
theorem Tracking.flush (tracking : Tracking base F known ws db s) (lasting : Lasting steadily F)
    (tolerant : Tolerant X) (e : Entity) (loaded new : e.Row)
    (kept : e.frozen new = e.frozen loaded) (rooted : Rooted base e db.tables ws loaded)
    (sited : e.Sited base db.tables new) :
    Tracks base fresh index
      (fun flushed db' s' => flushed = new ∧
        (new = loaded ∧ Tracking base F known ws db' s' ∨
          ∃ stored row, Renews e fresh known (engine.applyAll db'.tables ws) loaded new stored row ∧
            e.frozen row = e.frozen stored ∧ e.frozen stored = e.frozen new ∧
            Tracking base F (e.mapper.noted new :: known) (ws ++ [e.mapper.update stored row]) db' s'))
      X (e.mapper.flush loaded new) db s := by
  unfold Mapper.flush
  refine .ite (fun clean => ⟨rfl, .inl ⟨e.mapper.eq_of_clean clean, tracking⟩⟩) fun _ => ?_
  have anchored := tracking.and (G := fun t => Rooted base e t ws new) (rooted.of_frozen kept sited)
  refine anchored.query (lasting.and (lasting_rooted base e ws new)) tolerant ?_ ?_ ?_
  · rintro v error (raised | ⟨memo, w, raised⟩)
    · split at raised
      · cases raised
        rfl
      · cases raised
    · split at raised
      · cases raised
      · simp only [Except.ok.injEq, Effect.mk.injEq] at raised
        exact e.foreign_notHttp (map_eq_error raised.2.1)
  · intro db₁ v memo added _ ran
    split at ran
    · cases ran
    · simp only [Except.ok.injEq, Effect.mk.injEq, reduceCtorEq, and_false] at ran
  · intro db₁ v memo flushed w looking ran admitted
    split at ran
    · cases ran
    · rename_i stored found
      simp only [Except.ok.injEq, Effect.mk.injEq, Option.some.injEq] at ran
      obtain ⟨rfl, answered, rfl⟩ := ran
      obtain ⟨_, _, rfl⟩ := map_eq_ok answered
      have member : stored ∈ e.mapper.rows v.tables :=
        List.mem_of_mem_filter (List.mem_of_find?_eq_some found)
      have named : e.mapper.key stored = e.mapper.key loaded := by
        simpa using List.find?_some found
      have frozen := Entity.frozen_merge kept stored
      have viewed := looking.rooted (looking.tables ▸ member)
      have agree := looking.agree looking.fact.2 viewed (named.trans (Entity.key_of_frozen kept).symm)
      refine ⟨Entity.stands_update.mpr ⟨member, e.mapper.key_merge _ _ _⟩,
        Entity.steady_update.mpr frozen,
        Entity.sited_update.mpr (Entity.sited_merge (named.trans (Entity.key_of_frozen kept).symm)
          agree looking.fact.2.sited viewed.sited), _,
        (looking.remembers.more _).keep (looking.fact.2.more _), fun db' s' same tracking => ?_⟩
      refine ⟨rfl, .inr ⟨stored, _, ⟨?_, named, rfl, v.memo, looking.remembers.knows, ?_⟩, frozen,
        agree, tracking.weaken fun _ fact => fact.1⟩⟩
      · rw [same, ← looking.tables]
        exact member
      · rw [same, ← looking.tables]
        exact admitted

/-! ### The kernel -/

/-- The log has an entry of the call, with this identifier. -/
def Logged (normalise : Number → Number) (entryId : String) (call : AuditCall) (t : Tables) : Prop :=
  ∃ record ∈ t.auditLog, record.entry.entryId = entryId ∧ record.action = call.action ∧
    record.resourceType = call.resourceType ∧ record.resourceId = call.resourceId ∧
    record.decision = call.decision ∧ record.payload = call.payloadOrEmpty.normalised normalise

theorem auditLog_of_advances {t t' : Tables} (advances : steadily.Advances t t') :
    t.auditLog <+: t'.auditLog := by
  refine advances.induction (I := fun u => t.auditLog <+: u.auditLog) (fun u ws makes kept => ?_)
    List.prefix_rfl
  refine makes.induction (I := fun u => t.auditLog <+: u.auditLog) (fun u w _ _ _ kept => ?_) kept
  cases w with
  | insertAudit row => exact kept.trans (List.prefix_append _ _)
  | _ => exact kept

theorem lasting_logged (normalise : Number → Number) (entryId : String) (call : AuditCall) :
    Lasting steadily (Logged normalise entryId call) := by
  intro t t' advances logged
  obtain ⟨record, member, holds⟩ := logged
  exact ⟨record, (auditLog_of_advances advances).subset member, holds⟩

/-- What is stored of a call, under the identifier that it gives. -/
theorem Recorded.logged {platform : Platform} {ctx : ExecutionContext} {call : AuditCall}
    {entry : AuditEntry} {record : AuditLogRecord} {t : Tables} {id : UUID}
    (recorded : Recorded platform ctx call entry record) (member : record ∈ t.auditLog)
    (named : call.entryId = some id.hex) : Logged platform.normalise id.hex call t := by
  obtain ⟨prevHash, entryUuid, now, recordUuid, rfl, stored⟩ := recorded
  have same := storedRecord_eq stored
  have nonempty : id.hex ≠ "" := by
    intro empty
    have hex := UUID.isHex32_hex id
    rw [empty] at hex
    exact absurd hex (by decide)
  have given : call.entryIdOr entryUuid = id.hex := by
    simp [AuditCall.entryIdOr, named, nonempty]
  rw [given, UUID.parse_hex] at same
  refine ⟨record, member, ?_, ?_, ?_, ?_, ?_, ?_⟩
  · rw [same, Option.getD_some]
  · exact congrArg AuditEntry.action same
  · exact congrArg AuditEntry.resourceType same
  · exact congrArg AuditEntry.resourceId same
  · exact congrArg AuditEntry.decision same
  · exact congrArg AuditEntry.payload same

/-- An audit entry is committed at once. -/
theorem Tracking.audit (tracking : Tracking base F known ws db s) (lasting : Lasting steadily F)
    (tolerant : Tolerant X) (platform : Platform) (ctx : ExecutionContext) (call : AuditCall) :
    Tracks base fresh index
      (fun entry db' s' => Tracking base F known ws db' s' ∧
        ∃ row ∈ db'.tables.auditLog, Recorded platform ctx call entry row)
      X (Kernel.audit platform ctx call) db s := by
  refine Meets.bind (N := fun _ => Tracking base F known ws) ?_ fun prevHash db s tracking => ?_
  · refine Discipline.meets_eager (fun db₁ e turn raised => tolerant _ _ _ ?_) ?_ ?_
    · rcases raised with rfl | ⟨env, raised⟩ | ⟨_, _, _, _, ran, _⟩
      · rfl
      · cases raised
      · cases ran
    · exact fun _ _ _ turn _ => tracking.later lasting turn.advances
    · intro _ _ _ _ _ _ ran
      cases ran
  refine (tracking.choose lasting _).bind fun chosen db s tracking => ?_
  refine Meets.bind (N := fun _ db' s' => Tracking base F known ws db' s' ∧ ∃ row ∈ db'.tables.auditLog,
    Recorded platform ctx call (buildEntry platform.sha256 ctx call prevHash chosen.1 chosen.2) row) ?_
    fun _ _ _ done => done
  refine Discipline.meets_eager (fun db₁ e turn raised => tolerant _ _ _ ?_) ?_ ?_
  · rcases raised with rfl | ⟨env, raised⟩ | ⟨_, _, _, _, _, _, rfl⟩
    · rfl
    · exact insertedRecord_notHttp (map_eq_error raised)
    · rfl
  · intro _ _ _ _ ran
    obtain ⟨_, _, same⟩ := map_eq_ok ran
    cases same
  · intro db₁ db' env a w turn ran same
    obtain ⟨row, stored, written⟩ := map_eq_ok ran
    cases written
    refine ⟨⟨row, rfl⟩, fun advances => ⟨⟨tracking.pending, tracking.remembers.later advances,
      tracking.steady, fun w member => (tracking.sited w member).later advances, ?_,
      lasting _ _ advances tracking.fact⟩, row, ?_, prevHash, _, _, _, rfl,
      storedRecord_of_inserted stored⟩⟩
    · intro w member
      rcases List.mem_append.mp member with old | new
      · exact tracking.durable w old
      · exact ⟨row, List.mem_singleton.mp new⟩
    · rw [same]
      exact List.mem_append_right _ (List.mem_singleton_self row)

theorem Tracking.setConfig (tracking : Tracking base F known ws db s) (lasting : Lasting steadily F)
    (tolerant : Tolerant X) (scope : Scope) :
    Tracks base fresh index (fun _ => Tracking base F known ws) X (Kernel.setConfig scope) db s := by
  refine tracking.query lasting tolerant ?_ ?_ ?_
  · rintro v e (raised | ⟨memo, w, raised⟩) <;> cases raised
  · intro db₁ v memo a looking ran
    cases ran
    exact ⟨known, looking.remembers.scope _, fun _ _ _ tracking => tracking⟩
  · intro db₁ v memo a w _ ran
    cases ran

theorem Tracking.ofExcept {β : Type} (tracking : Tracking base F known ws db s) (tolerant : Tolerant X)
    {result : Except PyExc β} (errors : ∀ e, result = .error e → e.isHttp = false) :
    Tracks base fresh index (fun b db s => Tracking base F known ws db s ∧ result = .ok b) X
      (Program.ofExcept result) db s :=
  .ofExcept (fun _ made => ⟨tracking, made⟩) fun e raised => tolerant _ _ _ (errors e raised)

omit [DecidableEq ι] in
theorem Tracking.refuse (tracking : Tracking base F known [] db s) (e : PyExc) : Voids e db s :=
  fun _ => tracking.pending

end Rules
end LandVault
