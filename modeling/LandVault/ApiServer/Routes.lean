import LandVault.Library.Programs
import LandVault.Python.Uuid

/-!
# The TypeScript API

The requests of `artifacts/api-server/src/routes/parcels.ts` and `evidence.ts` that write,
with the two tables of `lib/db/src/schema`. No request opens a transaction: each statement
is committed by itself, and between two of them any other request may run.

The bodies have the fields that the routes read, as if the parse of the generated schemas
passed all of these. A session has no part in what the statements do; it records what its request has read of a parcel, and which parcel's score
it owes a recalculation.
-/

set_option autoImplicit false

namespace LandVault.ApiServer

open Library.Programs Python

/-! ## Tables -/

/-- The columns of a parcel that a client gives. -/
structure ParcelDetails where
  ownerName : String
  ownerPhone : Option String := none
  ownerEmail : Option String := none
  locationAddress : String
  state : String
  lga : String
  areaSqm : String
  parcelType : String
  latitude : Option Rat := none
  longitude : Option Rat := none

/-- A row of `parcelsTable`. -/
structure Parcel where
  id : UUID
  titleNumber : String
  details : ParcelDetails
  status : String := "pending"
  trustScore : Int := 0
  createdAt : Nat
  updatedAt : Nat

/-- A row of `evidenceTable`. -/
structure Evidence where
  id : UUID
  parcelId : UUID
  documentType : String
  fileName : String
  notes : Option String := none
  status : String := "pending_review"
  uploadedAt : Nat

structure Tables where
  parcels : List Parcel := []
  evidence : List Evidence := []

/-- `count(*)` of the verified evidence of a parcel. -/
def Tables.verified (t : Tables) (parcelId : UUID) : Nat :=
  (t.evidence.filter fun e => e.parcelId = parcelId ∧ e.status = "verified").length

/-! ## Trust scores -/

/-- `computeTrustScore`. -/
def computeTrustScore (status : String) (evidenceCount : Nat) : Int :=
  let score : Int := 10
  let score := if status = "registered" then score + 40 else score
  let score := if status = "disputed" then score - 10 else score
  let score := score + min ((evidenceCount : Int) * 12) 50
  min 100 (max 0 score)

/-! ## Statements -/

/-- The `updates` of `PATCH /parcels/:id`: what is given is set. -/
structure ParcelUpdates where
  details : Option (ParcelDetails → ParcelDetails) := none
  status : Option String := none
  trustScore : Option Int := none

/-- The `updates` of `PATCH /evidence/:evidenceId`. -/
structure EvidenceUpdates where
  status : Option String := none
  notes : Option (Option String) := none

/-- What the outside world supplies: a default `id`, the clock, and a title number. -/
structure Env where
  uuid : UUID
  now : Nat
  titleNumber : String

/-- What ends a request with a server error. -/
inductive Failure where
  | unique (constraint : String)
  | foreignKey (constraint : String)
  | noValues

inductive Statement : Type → Type 1 where
  | generateTitleNumber : Statement String
  | selectParcel (id : UUID) : Statement (Option Parcel)
  | countVerified (parcelId : UUID) : Statement Nat
  | insertParcel (titleNumber : String) (details : ParcelDetails) (trustScore : Int) :
      Statement Parcel
  | updateParcel (id : UUID) (updates : ParcelUpdates) : Statement (Option Parcel)
  | deleteParcel (id : UUID) : Statement (Option Parcel)
  | insertEvidence (parcelId : UUID) (documentType fileName : String) (notes : Option String) :
      Statement Evidence
  | updateEvidence (id : UUID) (updates : EvidenceUpdates) : Statement (Option Evidence)
  | deleteEvidence (id : UUID) : Statement (Option Evidence)

def ParcelUpdates.apply (updates : ParcelUpdates) (now : Nat) (parcel : Parcel) : Parcel :=
  { parcel with
    details := (updates.details.getD id) parcel.details
    status := updates.status.getD parcel.status
    trustScore := updates.trustScore.getD parcel.trustScore
    updatedAt := now }

def EvidenceUpdates.apply (updates : EvidenceUpdates) (evidence : Evidence) : Evidence :=
  { evidence with
    status := updates.status.getD evidence.status
    notes := updates.notes.getD evidence.notes }

/-- What a statement does to the tables, and what it answers. -/
def Statement.run {β : Type} (t : Tables) (env : Env) : Statement β → Except Failure β × Tables
  | .generateTitleNumber => (.ok env.titleNumber, t)
  | .selectParcel id => (.ok (t.parcels.find? (·.id = id)), t)
  | .countVerified parcelId => (.ok (t.verified parcelId), t)
  | .insertParcel titleNumber details trustScore =>
      let row : Parcel :=
        { id := env.uuid, titleNumber, details, status := "pending", trustScore
          createdAt := env.now, updatedAt := env.now }
      if (t.parcels.map (·.id)).contains row.id then (.error (.unique "parcels_pkey"), t)
      else if (t.parcels.map (·.titleNumber)).contains titleNumber then
        (.error (.unique "parcels_title_number_unique"), t)
      else (.ok row, { t with parcels := t.parcels ++ [row] })
  | .updateParcel id updates =>
      let parcels := t.parcels.map fun parcel =>
        if parcel.id = id then updates.apply env.now parcel else parcel
      (.ok (parcels.find? (·.id = id)), { t with parcels })
  | .deleteParcel id =>
      (.ok (t.parcels.find? (·.id = id)),
        { parcels := t.parcels.filter (·.id ≠ id), evidence := t.evidence.filter (·.parcelId ≠ id) })
  | .insertEvidence parcelId documentType fileName notes =>
      let row : Evidence :=
        { id := env.uuid, parcelId, documentType, fileName, notes, status := "pending_review"
          uploadedAt := env.now }
      if (t.evidence.map (·.id)).contains row.id then (.error (.unique "evidence_pkey"), t)
      else if (t.parcels.map (·.id)).contains parcelId then
        (.ok row, { t with evidence := t.evidence ++ [row] })
      else (.error (.foreignKey "evidence_parcel_id_parcels_id_fk"), t)
  | .updateEvidence id updates =>
      let evidence := t.evidence.map fun e => if e.id = id then updates.apply e else e
      (.ok (evidence.find? (·.id = id)), { t with evidence })
  | .deleteEvidence id =>
      (.ok (t.evidence.find? (·.id = id)), { t with evidence := t.evidence.filter (·.id ≠ id) })

/-! ## Requests -/

abbrev Request := Program Statement Failure

def perform {β : Type} (statement : Statement β) : Request β := .perform statement

/-- What a client is told. -/
inductive Response where
  | parcel (code : Nat) (row : Parcel)
  | evidence (code : Nat) (row : Evidence)
  | noContent
  | error (code : Nat) (message : String)

/-- The score that `recalcTrustScore` computes for itself. -/
def recalculated (parcel : Parcel) (evCount : Nat) : Int :=
  let score : Int := 10
  let score := if parcel.status = "registered" then score + 40 else score
  let score := if parcel.status = "disputed" then score - 10 else score
  let score := score + min ((evCount : Int) * 12) 50
  min 100 (max 0 score)

/-- `recalcTrustScore`. -/
def recalcTrustScore (parcelId : UUID) : Request Unit := do
  match ← perform (.selectParcel parcelId) with
  | none => pure ()
  | some parcel =>
      let evCount ← perform (.countVerified parcelId)
      let _ ← perform (.updateParcel parcelId { trustScore := some (recalculated parcel evCount) })
      pure ()

/-- `POST /parcels`. -/
def createParcel (details : ParcelDetails) : Request Response := do
  let titleNumber ← perform .generateTitleNumber
  let parcel ← perform (.insertParcel titleNumber details 10)
  pure (.parcel 201 parcel)

/-- A text that is given and not empty. -/
def given (text : Option String) : Option String := text.filter (· ≠ "")

/-- `PATCH /parcels/:id`, of what its body sets. -/
def patchParcel (id : UUID) (details : Option (ParcelDetails → ParcelDetails))
    (status : Option String) : Request Response := do
  if details.isNone && status.isNone then
    match ← perform (.selectParcel id) with
    | none => pure (.error 404 "Parcel not found")
    | some existing => pure (.parcel 200 existing)
  else
    let trustScore ← match given status with
      | none => pure none
      | some status => do
          let evCount ← perform (.countVerified id)
          pure (some (computeTrustScore status evCount))
    match ← perform (.updateParcel id { details, status, trustScore }) with
    | none => pure (.error 404 "Parcel not found")
    | some updated => pure (.parcel 200 updated)

/-- `DELETE /parcels/:id`. -/
def deleteParcel (id : UUID) : Request Response := do
  match ← perform (.deleteParcel id) with
  | none => pure (.error 404 "Parcel not found")
  | some _ => pure .noContent

/-- `POST /parcels/:id/evidence`. -/
def addEvidence (parcelId : UUID) (documentType fileName : String) (notes : Option String) :
    Request Response := do
  match ← perform (.selectParcel parcelId) with
  | none => pure (.error 404 "Parcel not found")
  | some _ =>
      let evidence ← perform (.insertEvidence parcelId documentType fileName notes)
      pure (.evidence 201 evidence)

/-- `PATCH /evidence/:evidenceId`; drizzle refuses an update of nothing. -/
def patchEvidence (id : UUID) (updates : EvidenceUpdates) : Request Response := do
  if updates.status.isNone && updates.notes.isNone then throw .noValues
  else
    match ← perform (.updateEvidence id updates) with
    | none => pure (.error 404 "Evidence not found")
    | some updated =>
        match given updates.status with
        | none => pure (.evidence 200 updated)
        | some _ => do
            recalcTrustScore updated.parcelId
            pure (.evidence 200 updated)

/-- `DELETE /evidence/:evidenceId`. -/
def deleteEvidence (id : UUID) : Request Response := do
  match ← perform (.deleteEvidence id) with
  | none => pure (.error 404 "Evidence not found")
  | some deleted => do
      recalcTrustScore deleted.parcelId
      pure .noContent

/-- The requests that write. -/
inductive Call where
  | createParcel (details : ParcelDetails)
  | patchParcel (id : UUID) (details : Option (ParcelDetails → ParcelDetails))
      (status : Option String)
  | deleteParcel (id : UUID)
  | addEvidence (parcelId : UUID) (documentType fileName : String) (notes : Option String)
  | patchEvidence (id : UUID) (updates : EvidenceUpdates)
  | deleteEvidence (id : UUID)

def Call.serve : Call → Request Response
  | .createParcel details => ApiServer.createParcel details
  | .patchParcel id details status => ApiServer.patchParcel id details status
  | .deleteParcel id => ApiServer.deleteParcel id
  | .addEvidence parcelId documentType fileName notes =>
      ApiServer.addEvidence parcelId documentType fileName notes
  | .patchEvidence id updates => ApiServer.patchEvidence id updates
  | .deleteEvidence id => ApiServer.deleteEvidence id

end LandVault.ApiServer
