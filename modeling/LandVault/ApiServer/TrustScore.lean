import Mathlib.Data.List.Nodup
import LandVault.ApiServer.Routes

/-!
# The cached trust score

A request that changes the evidence of a parcel owes the parcel a new score until it has
written one. Where each score that is written agrees with what its request has read, a
parcel without the right score is owed one by a request in progress; when no request is in
progress, there is none.
-/

set_option autoImplicit false

namespace LandVault.ApiServer

open Library.Programs Python

/-! ## Sessions -/

/-- What a request has read of a parcel. -/
inductive Observation where
  | status (parcelId : UUID) (value : String)
  | count (parcelId : UUID) (value : Nat)

structure Session where
  observed : List Observation := []
  owes : Option UUID := none

/-- The request owes nothing to this parcel any more. -/
def Session.settle (s : Session) (parcelId : UUID) : Session :=
  { s with owes := s.owes.filter (· ≠ parcelId) }

/-- What a request records of an answer. -/
def Session.note {β : Type} (s : Session) : Statement β → Except Failure β → Session
  | .selectParcel id, .ok (some parcel) =>
      { s with observed := .status id parcel.status :: s.observed }
  | .selectParcel id, .ok none => s.settle id
  | .countVerified id, .ok count => { s with observed := .count id count :: s.observed }
  | .updateParcel id updates, .ok _ => if updates.trustScore.isSome then s.settle id else s
  | .updateEvidence _ updates, .ok (some e) =>
      if updates.status.isSome then { s with owes := some e.parcelId } else s
  | .deleteEvidence _, .ok (some e) => { s with owes := some e.parcelId }
  | _, _ => s

/-- The database for any number of requests. -/
def api (ι : Type) : Machine ι Statement Failure Tables Session Env where
  exec := fun _ t s statement env =>
    let (answer, t) := statement.run t env
    some (answer, t, s.note statement answer)
  crash := fun _ t s => (t, s)

/-- What was read of the parcel still holds. -/
def Observation.Holds (t : Tables) (parcelId : UUID) : Observation → Prop
  | .status id value => id = parcelId → ∀ parcel ∈ t.parcels, parcel.id = id → parcel.status = value
  | .count id value => id = parcelId → t.verified id = value

/-- A statement that writes a score finds what its request has read of the parcel. -/
def Fresh (t : Tables) (s : Session) {β : Type} : Statement β → Prop
  | .updateParcel id updates =>
      updates.trustScore.isSome = true → ∀ o ∈ s.observed, o.Holds t id
  | _ => True

def freshScores (ι : Type) : Admission ι Statement Tables Session Env where
  admits := fun _ t s statement _ => Fresh t s statement

instance (t : Tables) (parcelId : UUID) : (o : Observation) → Decidable (o.Holds t parcelId)
  | .status id value => inferInstanceAs
      (Decidable (id = parcelId → ∀ parcel ∈ t.parcels, parcel.id = id → parcel.status = value))
  | .count id value => inferInstanceAs (Decidable (id = parcelId → t.verified id = value))

instance {ι β : Type} (index : ι) (t : Tables) (s : Session) (statement : Statement β) (env : Env) :
    Decidable ((freshScores ι).admits index t s statement env) :=
  match statement with
  | .updateParcel id updates => inferInstanceAs
      (Decidable (updates.trustScore.isSome = true → ∀ o ∈ s.observed, o.Holds t id))
  | .generateTitleNumber | .selectParcel _ | .countVerified _ | .insertParcel .. | .deleteParcel _
  | .insertEvidence .. | .updateEvidence .. | .deleteEvidence _ => .isTrue trivial

/-! ## What each request does -/

/-- Where a score is written, it is computed from what was read; an update of the status
comes with a score; and only a request that owes nothing changes evidence. -/
def Legit (s : Session) {β : Type} : Statement β → Prop
  | .updateParcel id updates =>
      match updates.trustScore with
      | none => updates.status = none
      | some score => ∃ status count, Observation.count id count ∈ s.observed ∧
          score = computeTrustScore status count ∧
          (updates.status = some status ∨
            updates.status = none ∧ Observation.status id status ∈ s.observed)
  | .updateEvidence _ _ | .deleteEvidence _ => s.owes = none
  | .insertParcel _ _ trustScore => trustScore = 10
  | _ => True

/-- The rest of a request takes legitimate steps only, and leaves nothing owed. -/
def Settles {α : Type} (s : Session) : Request α → Prop
  | .ret _ => s.owes = none
  | .throw _ => s.owes = none
  | .step statement next => Legit s statement ∧
      ∀ t env, Settles (s.note statement (statement.run t env).1) (next (statement.run t env).1)

/-- No status that a request sets is the empty text. -/
def Call.NamesStatus : Call → Prop
  | .patchParcel _ _ status => status ≠ some ""
  | .patchEvidence _ updates => updates.status ≠ some ""
  | _ => True

theorem recalculated_eq (parcel : Parcel) (count : Nat) :
    recalculated parcel count = computeTrustScore parcel.status count := rfl

section Requests

variable {α β : Type} {s : Session} {id parcelId : UUID}

/-- One statement of a request, by its two kinds of answers. -/
theorem settles_step {statement : Statement β} {next : Except Failure β → Request α}
    (legit : Legit s statement)
    (answered : ∀ t env b, (statement.run t env).1 = .ok b →
      Settles (s.note statement (.ok b)) (next (.ok b)))
    (raised : ∀ t env e, (statement.run t env).1 = .error e →
      Settles (s.note statement (.error e)) (next (.error e))) :
    Settles s (.step statement next) := by
  refine ⟨legit, fun t env => ?_⟩
  cases ran : (statement.run t env).1 with
  | ok b => exact answered t env b ran
  | error e => exact raised t env e ran

/-- The filter of `settle` leaves nothing of what was owed to the parcel. -/
theorem settle_owes (owed : s.owes = none ∨ s.owes = some id) : (s.settle id).owes = none := by
  rcases owed with nothing | parcel
  · simp [Session.settle, nothing]
  · simp [Session.settle, parcel]

theorem settles_recalcTrustScore {rest : Request α}
    (owed : s.owes = none ∨ s.owes = some parcelId)
    (continues : ∀ s' : Session, s'.owes = none → Settles s' rest) :
    Settles s ((recalcTrustScore parcelId).bind fun _ => rest) := by
  refine settles_step trivial (fun t env found _ => ?_) (fun t env e raised => by cases raised)
  cases found with
  | none => exact continues _ (settle_owes owed)
  | some parcel =>
      refine settles_step trivial (fun t env count _ => ?_) (fun t env e raised => by cases raised)
      refine settles_step ⟨parcel.status, count, List.mem_cons_self, recalculated_eq parcel count,
        .inr ⟨rfl, List.mem_cons_of_mem _ List.mem_cons_self⟩⟩ (fun t env b _ => ?_)
        (fun t env e raised => by cases raised)
      exact continues _ (settle_owes owed)

theorem settles_createParcel (details : ParcelDetails) (clear : s.owes = none) :
    Settles s (createParcel details) := by
  refine settles_step trivial (fun t env titleNumber _ => ?_) (fun t env e raised => by cases raised)
  exact settles_step rfl (fun t env row _ => clear) fun t env e _ => clear

theorem settles_patchParcel (details : Option (ParcelDetails → ParcelDetails))
    {status : Option String} (named : status ≠ some "") (clear : s.owes = none) :
    Settles s (patchParcel id details status) := by
  unfold patchParcel
  split
  · refine settles_step trivial (fun t env found _ => ?_) (fun t env e raised => by cases raised)
    cases found with
    | none => exact settle_owes (.inl clear)
    | some existing => exact clear
  cases status with
  | none =>
      refine settles_step rfl (fun t env updated _ => ?_) (fun t env e raised => by cases raised)
      cases updated <;> exact clear
  | some status =>
      have kept : given (some status) = some status := by
        have : status ≠ "" := fun empty => named (congrArg some empty)
        simp [given, this]
      rw [kept]
      refine settles_step trivial (fun t env count _ => ?_) (fun t env e raised => by cases raised)
      refine settles_step ⟨status, count, List.mem_cons_self, rfl, .inl rfl⟩
        (fun t env updated _ => ?_) (fun t env e raised => by cases raised)
      cases updated <;> exact settle_owes (.inl clear)

theorem settles_deleteParcel (clear : s.owes = none) : Settles s (deleteParcel id) := by
  refine settles_step trivial (fun t env found _ => ?_) (fun t env e raised => by cases raised)
  cases found <;> exact clear

theorem settles_addEvidence (documentType fileName : String) (notes : Option String)
    (clear : s.owes = none) : Settles s (addEvidence parcelId documentType fileName notes) := by
  refine settles_step trivial (fun t env found _ => ?_) (fun t env e raised => by cases raised)
  cases found with
  | none => exact settle_owes (.inl clear)
  | some parcel => exact settles_step trivial (fun t env row _ => clear) fun t env e _ => clear

theorem settles_patchEvidence {updates : EvidenceUpdates} (named : updates.status ≠ some "")
    (clear : s.owes = none) : Settles s (patchEvidence id updates) := by
  unfold patchEvidence
  by_cases empty : (updates.status.isNone && updates.notes.isNone) = true
  · rw [if_pos empty]
    exact clear
  rw [if_neg empty]
  refine settles_step clear (fun t env found _ => ?_) (fun t env e raised => by cases raised)
  cases found with
  | none => exact clear
  | some updated =>
      cases status : updates.status with
      | none =>
          have untouched :
              (s.note (.updateEvidence id updates) (.ok (some updated))).owes = none := by
            simpa [Session.note, status] using clear
          exact untouched
      | some value =>
          have owing : (s.note (.updateEvidence id updates) (.ok (some updated))).owes =
              some updated.parcelId := by
            simp [Session.note, status]
          have kept : given (some value) = some value := by
            have : value ≠ "" := fun empty => named (status.trans (congrArg some empty))
            simp [given, this]
          simp only [kept]
          exact settles_recalcTrustScore (.inr owing) fun s' clear => clear

theorem settles_deleteEvidence (clear : s.owes = none) : Settles s (deleteEvidence id) := by
  refine settles_step clear (fun t env found _ => ?_) (fun t env e raised => by cases raised)
  cases found with
  | none => exact clear
  | some deleted => exact settles_recalcTrustScore (.inr rfl) fun s' clear => clear

end Requests

theorem settles_serve (call : Call) (named : call.NamesStatus) : Settles {} call.serve := by
  cases call with
  | createParcel details => exact settles_createParcel details rfl
  | patchParcel id details status => exact settles_patchParcel details named rfl
  | deleteParcel id => exact settles_deleteParcel rfl
  | addEvidence parcelId documentType fileName notes => exact settles_addEvidence _ _ _ rfl
  | patchEvidence id updates => exact settles_patchEvidence named rfl
  | deleteEvidence id => exact settles_deleteEvidence rfl

/-! ## What one statement does to the scores -/

/-- The stored score is the right one. -/
def Scored (t : Tables) (parcel : Parcel) : Prop :=
  parcel.trustScore = computeTrustScore parcel.status (t.verified parcel.id)

/-- The primary keys and the foreign key. -/
structure Keyed (t : Tables) : Prop where
  parcels : (t.parcels.map (·.id)).Nodup
  evidence : (t.evidence.map (·.id)).Nodup
  foreign : ∀ e ∈ t.evidence, e.parcelId ∈ t.parcels.map (·.id)

section Tables

variable {t : Tables} {s : Session} {env : Env}

theorem map_id_update (updates : ParcelUpdates) (now : Nat) (id : UUID) (parcels : List Parcel) :
    (parcels.map fun parcel => if parcel.id = id then updates.apply now parcel else parcel).map
      (·.id) = parcels.map (·.id) := by
  rw [List.map_map]
  refine List.map_congr_left fun parcel _ => ?_
  simp only [Function.comp_apply]
  split <;> rfl

theorem map_evidence_update (updates : EvidenceUpdates) (id : UUID) (evidence : List Evidence) :
    (evidence.map fun e => if e.id = id then updates.apply e else e).map
      (fun e => (e.id, e.parcelId)) = evidence.map fun e => (e.id, e.parcelId) := by
  rw [List.map_map]
  refine List.map_congr_left fun e _ => ?_
  simp only [Function.comp_apply]
  split <;> rfl

/-- Every statement keeps the keys. -/
theorem Keyed.run (keyed : Keyed t) {β : Type} (statement : Statement β) :
    Keyed (statement.run t env).2 := by
  cases statement with
  | generateTitleNumber | selectParcel | countVerified => exact keyed
  | insertParcel titleNumber details trustScore =>
      simp only [Statement.run]
      split_ifs with taken named
      · exact keyed
      · exact keyed
      · refine ⟨?_, keyed.evidence, fun e member => ?_⟩
        · rw [List.map_append]
          exact keyed.parcels.append (by simp) (by simpa using taken)
        · rw [List.map_append]
          exact List.mem_append_left _ (keyed.foreign e member)
  | updateParcel id updates =>
      refine ⟨?_, keyed.evidence, fun e member => ?_⟩
      · simpa only [Statement.run, map_id_update] using keyed.parcels
      · simpa only [Statement.run, map_id_update] using keyed.foreign e member
  | deleteParcel id =>
      refine ⟨keyed.parcels.sublist (List.filter_sublist.map _),
        keyed.evidence.sublist (List.filter_sublist.map _), fun e member => ?_⟩
      obtain ⟨member, other⟩ := List.mem_filter.mp member
      obtain ⟨parcel, stored, same⟩ := List.mem_map.mp (keyed.foreign e member)
      refine List.mem_map.mpr ⟨parcel, List.mem_filter.mpr ⟨stored, ?_⟩, same⟩
      simpa [same] using other
  | insertEvidence parcelId documentType fileName notes =>
      simp only [Statement.run]
      split_ifs with taken stored
      · exact keyed
      · refine ⟨keyed.parcels, ?_, fun e member => ?_⟩
        · rw [List.map_append]
          exact keyed.evidence.append (by simp) (by simpa using taken)
        · rcases List.mem_append.mp member with old | new
          · exact keyed.foreign e old
          · cases List.mem_singleton.mp new
            simpa using stored
      · exact keyed
  | updateEvidence id updates =>
      have same := map_evidence_update updates id t.evidence
      have ids := congrArg (List.map Prod.fst) same
      have parcels := congrArg (List.map Prod.snd) same
      simp only [List.map_map, Function.comp_def] at ids parcels
      refine ⟨keyed.parcels, by simpa only [Statement.run, List.map_map, Function.comp_def, ids]
        using keyed.evidence, fun e member => ?_⟩
      have listed : e.parcelId ∈ (t.evidence.map fun e =>
          if e.id = id then updates.apply e else e).map (·.parcelId) := List.mem_map_of_mem member
      simp only [List.map_map, Function.comp_def, parcels] at listed
      obtain ⟨old, stored, named⟩ := List.mem_map.mp listed
      exact named ▸ keyed.foreign old stored
  | deleteEvidence id =>
      exact ⟨keyed.parcels, keyed.evidence.sublist (List.filter_sublist.map _), fun e member =>
        keyed.foreign e (List.mem_of_mem_filter member)⟩

/-- What may be wrong after a statement: the score of a parcel that its request owes, or one
that was wrong before and is still owed by whoever owed it. -/
def Covers (t : Tables) (s : Session) (t' : Tables) (s' : Session) : Prop :=
  ∀ parcel ∈ t'.parcels, ¬ Scored t' parcel → s'.owes = some parcel.id ∨
    (∃ old ∈ t.parcels, old.id = parcel.id ∧ ¬ Scored t old) ∧
      (s.owes = some parcel.id → s'.owes = some parcel.id)

theorem settle_keeps {id other : UUID} (different : other ≠ id) (owed : s.owes = some other) :
    (s.settle id).owes = some other := by
  simp [Session.settle, owed, different]

/-- A statement that leaves the tables as they are. -/
theorem Covers.unchanged {s' : Session}
    (keeps : ∀ parcel ∈ t.parcels, s.owes = some parcel.id → s'.owes = some parcel.id) :
    Covers t s t s' :=
  fun parcel member wrong => .inr ⟨⟨parcel, member, rfl, wrong⟩, keeps parcel member⟩

/-- A statement that changes evidence only, and whose request then owes the parcel whose
count has changed. -/
theorem Covers.evidence {evidence : List Evidence} {s' : Session} (clear : s.owes = none)
    (counted : ∀ id, s'.owes = some id ∨
      Tables.verified { t with evidence } id = t.verified id) :
    Covers t s { t with evidence } s' := by
  intro parcel member wrong
  rcases counted parcel.id with owed | same
  · exact .inl owed
  · refine .inr ⟨⟨parcel, member, rfl, fun scored => wrong ?_⟩, by simp [clear]⟩
    exact scored.trans (congrArg _ same.symm)

theorem verified_eq (id : UUID) :
    t.verified id = t.evidence.countP fun e => e.parcelId = id ∧ e.status = "verified" :=
  (List.countP_eq_length_filter).symm

/-- Only the verified evidence of a parcel counts. -/
theorem verified_congr {evidence : List Evidence} {f : Evidence → Evidence} {id : UUID}
    (same : ∀ e ∈ evidence, (f e).parcelId = id ∧ (f e).status = "verified" ↔
      e.parcelId = id ∧ e.status = "verified") :
    (evidence.map f).countP (fun e => e.parcelId = id ∧ e.status = "verified") =
      evidence.countP fun e => e.parcelId = id ∧ e.status = "verified" := by
  rw [List.countP_map]
  exact List.countP_congr fun e member => by simpa using same e member

theorem covers_insertParcel (keyed : Keyed t) (titleNumber : String) (details : ParcelDetails) :
    Covers t s ((Statement.insertParcel titleNumber details 10).run t env).2 s := by
  simp only [Statement.run]
  split_ifs with taken named
  · exact .unchanged fun _ _ owed => owed
  · exact .unchanged fun _ _ owed => owed
  · intro parcel member wrong
    rcases List.mem_append.mp member with old | new
    · exact .inr ⟨⟨parcel, old, rfl, wrong⟩, fun owed => owed⟩
    · cases List.mem_singleton.mp new
      -- no evidence names a parcel that is not there yet
      have none_verified : t.verified env.uuid = 0 := by
        refine List.length_eq_zero_iff.mpr (List.filter_eq_nil_iff.mpr fun e listed names => ?_)
        have same : e.parcelId = env.uuid := (of_decide_eq_true names).1
        exact taken (List.contains_iff_mem.mpr (same ▸ keyed.foreign e listed))
      refine absurd ?_ wrong
      show (10 : Int) = computeTrustScore "pending" (t.verified env.uuid)
      rw [none_verified]
      decide

theorem covers_updateParcel {id : UUID} {updates : ParcelUpdates}
    (legit : Legit s (.updateParcel id updates)) (fresh : Fresh t s (.updateParcel id updates)) :
    Covers t s ((Statement.updateParcel id updates).run t env).2
      (if updates.trustScore.isSome then s.settle id else s) := by
  intro parcel member wrong
  obtain ⟨old, stored, rfl⟩ := List.mem_map.mp member
  by_cases named : old.id = id
  · -- the parcel that is named gets the score of what was read, or keeps its own
    rw [if_pos named] at wrong ⊢
    cases given : updates.trustScore with
    | none =>
        rw [Legit, given] at legit
        refine .inr ⟨⟨old, stored, rfl, fun scored => wrong ?_⟩, by simp [ParcelUpdates.apply]⟩
        show updates.trustScore.getD old.trustScore =
          computeTrustScore (updates.status.getD old.status) (t.verified old.id)
        rw [given, legit]
        exact scored
    | some score =>
        rw [Legit, given] at legit
        obtain ⟨status, count, counted, computed, written⟩ := legit
        have finds : ∀ o ∈ s.observed, o.Holds t id := fresh (by simp [given])
        have verified : t.verified old.id = count := named ▸ finds _ counted rfl
        have stands : updates.status.getD old.status = status := by
          rcases written with set | ⟨unset, read⟩
          · simp [set]
          · rw [unset]
            exact finds _ read rfl old stored named
        refine absurd ?_ wrong
        show (updates.trustScore.getD old.trustScore) =
          computeTrustScore (updates.status.getD old.status) (t.verified old.id)
        rw [given, stands, verified]
        exact computed
  · rw [if_neg named] at wrong ⊢
    refine .inr ⟨⟨old, stored, rfl, wrong⟩, fun owed => ?_⟩
    split
    · exact settle_keeps named owed
    · exact owed

theorem covers_deleteParcel (id : UUID) :
    Covers t s ((Statement.deleteParcel id).run t env).2 s := by
  intro parcel member wrong
  obtain ⟨stored, other⟩ := List.mem_filter.mp member
  have same : Tables.verified ((Statement.deleteParcel id).run t env).2 parcel.id =
      t.verified parcel.id := by
    simp only [Statement.run, Tables.verified, List.filter_filter]
    congr 1
    refine List.filter_congr fun e _ => ?_
    by_cases names : e.parcelId = parcel.id
    · simpa [names] using fun _ => other
    · simp [names]
  refine .inr ⟨⟨parcel, stored, rfl, fun scored => wrong ?_⟩, fun owed => owed⟩
  exact scored.trans (congrArg _ same.symm)

theorem covers_insertEvidence (parcelId : UUID) (documentType fileName : String)
    (notes : Option String) :
    Covers t s ((Statement.insertEvidence parcelId documentType fileName notes).run t env).2 s := by
  simp only [Statement.run]
  split_ifs with taken stored
  · exact .unchanged fun _ _ owed => owed
  · intro parcel member wrong
    refine .inr ⟨⟨parcel, member, rfl, fun scored => wrong ?_⟩, fun owed => owed⟩
    simpa [Scored, Tables.verified, List.filter_append] using scored
  · exact .unchanged fun _ _ owed => owed

/-- Evidence of another parcel than the one that changes counts as before. -/
theorem covers_updateEvidence (keyed : Keyed t) (id : UUID) (updates : EvidenceUpdates)
    (clear : s.owes = none) :
    Covers t s ((Statement.updateEvidence id updates).run t env).2
      (s.note (.updateEvidence id updates) ((Statement.updateEvidence id updates).run t env).1) := by
  refine .evidence clear fun parcelId => ?_
  simp only [verified_eq]
  cases set : updates.status with
  | none =>
      refine .inr (verified_congr fun e _ => ?_)
      split <;> simp [EvidenceUpdates.apply, set]
  | some status =>
      cases found : (t.evidence.map fun e => if e.id = id then updates.apply e else e).find?
          (·.id = id) with
      | none =>
          refine .inr (verified_congr fun e member => ?_)
          have other : e.id ≠ id := by
            have missing := List.find?_eq_none.mp found _ (List.mem_map_of_mem member)
            by_contra named
            simp [named, EvidenceUpdates.apply] at missing
          simp [other]
      | some updated =>
          obtain ⟨old, stored, changed⟩ := List.mem_map.mp (List.mem_of_find?_eq_some found)
          have named : updated.id = id := by simpa using List.find?_some found
          have named_old : old.id = id := by
            by_contra other
            rw [if_neg other] at changed
            exact other (changed ▸ named)
          have same_parcel : updated.parcelId = old.parcelId := by
            rw [← changed, if_pos named_old]
            rfl
          by_cases owing : updated.parcelId = parcelId
          · refine .inl ?_
            simp [Statement.run, found, Session.note, set, owing]
          · refine .inr (verified_congr fun e member => ?_)
            split
            · rename_i named_e
              have single : e = old :=
                List.inj_on_of_nodup_map keyed.evidence member stored (named_e.trans named_old.symm)
              have away : ¬ e.parcelId = parcelId := by rwa [single, ← same_parcel]
              simp [EvidenceUpdates.apply, away]
            · exact Iff.rfl

theorem covers_deleteEvidence (keyed : Keyed t) (id : UUID) (clear : s.owes = none) :
    Covers t s ((Statement.deleteEvidence id).run t env).2
      (s.note (.deleteEvidence id) ((Statement.deleteEvidence id).run t env).1) := by
  refine .evidence clear fun parcelId => ?_
  simp only [verified_eq, List.countP_filter]
  have uncounted (others : ∀ e ∈ t.evidence, e.id = id → e.parcelId ≠ parcelId) :
      (t.evidence.countP fun e => decide (e.parcelId = parcelId ∧ e.status = "verified") &&
        decide (e.id ≠ id)) =
      t.evidence.countP fun e => decide (e.parcelId = parcelId ∧ e.status = "verified") := by
    refine List.countP_congr fun e member => ?_
    have away := others e member
    simp only [Bool.and_eq_true, decide_eq_true_eq, ne_eq]
    exact ⟨And.left, fun counts => ⟨counts, fun named => away named counts.1⟩⟩
  cases found : t.evidence.find? (·.id = id) with
  | none =>
      refine .inr (uncounted fun e member named => ?_)
      simpa [named] using List.find?_eq_none.mp found e member
  | some deleted =>
      by_cases owing : deleted.parcelId = parcelId
      · refine .inl ?_
        simp [Statement.run, found, Session.note, owing]
      · refine .inr (uncounted fun e member named => ?_)
        have named_deleted : deleted.id = id := by simpa using List.find?_some found
        have single : e = deleted := List.inj_on_of_nodup_map keyed.evidence member
          (List.mem_of_find?_eq_some found) (named.trans named_deleted.symm)
        rwa [single]

/-- What each statement leaves to be done. -/
theorem covers_run (keyed : Keyed t) {β : Type} {statement : Statement β}
    (legit : Legit s statement) (fresh : Fresh t s statement) :
    Covers t s (statement.run t env).2 (s.note statement (statement.run t env).1) := by
  cases statement with
  | generateTitleNumber => exact .unchanged fun _ _ owed => owed
  | countVerified parcelId => exact .unchanged fun _ _ owed => owed
  | selectParcel id =>
      refine .unchanged fun parcel member owed => ?_
      simp only [Statement.run]
      cases found : t.parcels.find? (·.id = id) with
      | some read => exact owed
      | none =>
          have other : parcel.id ≠ id := by simpa using List.find?_eq_none.mp found parcel member
          exact settle_keeps other owed
  | insertParcel titleNumber details trustScore =>
      cases legit
      have noted (answer : Except Failure Parcel) :
          s.note (.insertParcel titleNumber details 10) answer = s := by cases answer <;> rfl
      rw [noted]
      exact covers_insertParcel keyed titleNumber details
  | updateParcel id updates => exact covers_updateParcel legit fresh
  | deleteParcel id =>
      have noted (answer : Except Failure (Option Parcel)) :
          s.note (.deleteParcel id) answer = s := by cases answer <;> rfl
      rw [noted]
      exact covers_deleteParcel id
  | insertEvidence parcelId documentType fileName notes =>
      have noted (answer : Except Failure Evidence) :
          s.note (.insertEvidence parcelId documentType fileName notes) answer = s := by
        cases answer <;> rfl
      rw [noted]
      exact covers_insertEvidence parcelId documentType fileName notes
  | updateEvidence id updates => exact covers_updateEvidence keyed id updates legit
  | deleteEvidence id => exact covers_deleteEvidence keyed id legit

end Tables

/-! ## Runs -/

section Runs

variable {ι : Type} [DecidableEq ι]

/-- A world of requests that write. -/
abbrev Requests (ι : Type) := World ι Statement Failure Response Tables Session

/-- Each request settles what it owes, and a wrong score is owed by some request. -/
structure Consistent (w : Requests ι) : Prop where
  keyed : Keyed w.db
  settles : ∀ index, ∀ program ∈ (w.task index).program, Settles (w.task index).session program
  owed : ∀ parcel ∈ w.db.parcels, ¬ Scored w.db parcel →
    ∃ index, (w.task index).session.owes = some parcel.id

/-- No request is in progress: each has been answered, or has not begun. A request that a
crash cuts short never is. -/
def AtRest (calls : ι → Call) (w : Requests ι) : Prop :=
  ∀ index, (w.task index).answer.isSome ∨ w.task index = ⟨{}, some (calls index).serve⟩

theorem Consistent.update {w : Requests ι} (consistent : Consistent w) {t : Tables} {index : ι}
    {left : Task Statement Failure Response Session} (keyed : Keyed t)
    (settles : ∀ program ∈ left.program, Settles left.session program)
    (covers : Covers w.db (w.task index).session t left.session) :
    Consistent ⟨t, Function.update w.task index left⟩ := by
  refine ⟨keyed, fun other => ?_, fun parcel member wrong => ?_⟩
  · show ∀ program ∈ (Function.update w.task index left other).program,
      Settles (Function.update w.task index left other).session program
    by_cases same : other = index
    · rw [same, Function.update_self]
      exact settles
    · rw [Function.update_of_ne same]
      exact consistent.settles other
  · show ∃ debtor, (Function.update w.task index left debtor).session.owes = some parcel.id
    rcases covers parcel member wrong with owed | ⟨⟨old, stored, named, stale⟩, stays⟩
    · exact ⟨index, by rwa [Function.update_self]⟩
    · obtain ⟨debtor, owed⟩ := consistent.owed old stored stale
      rw [named] at owed
      refine ⟨debtor, ?_⟩
      by_cases same : debtor = index
      · rw [same, Function.update_self]
        exact stays (same ▸ owed)
      · rwa [Function.update_of_ne same]

theorem Consistent.steps {w w' : Requests ι} (consistent : Consistent w)
    (step : World.Steps (api ι) (freshScores ι) w w') : Consistent w' := by
  obtain ⟨action, admits, acted⟩ := step
  rcases World.act_cases acted with
    ⟨index, env, β, statement, next, answer, db, session, rfl, remaining, executed, rfl⟩ |
    ⟨index, β, statement, next, rfl, remaining, rfl⟩
  · simp only [World.Admits, remaining] at admits
    have settles : Settles (w.task index).session (.step statement next) :=
      consistent.settles index _ remaining
    simp only [api, Option.some.injEq, Prod.mk.injEq] at executed
    obtain ⟨rfl, rfl, rfl⟩ := executed
    refine consistent.update (consistent.keyed.run statement) (fun program runs => ?_)
      (covers_run consistent.keyed settles.1 admits)
    cases runs
    exact settles.2 w.db env
  · exact consistent.update consistent.keyed nofun (.unchanged fun _ _ owed => owed)

omit [DecidableEq ι] in
/-- At rest nothing is owed. -/
theorem Consistent.scored {calls : ι → Call} {w : Requests ι} (consistent : Consistent w)
    (rest : AtRest calls w) : ∀ parcel ∈ w.db.parcels, Scored w.db parcel := by
  intro parcel member
  by_contra wrong
  obtain ⟨index, owed⟩ := consistent.owed parcel member wrong
  have clear : (w.task index).session.owes = none := by
    rcases rest index with answered | unbegun
    · have settles := consistent.settles index
      cases remaining : (w.task index).program with
      | none => simp [Task.answer, remaining] at answered
      | some program =>
          cases program with
          | ret value => exact settles _ remaining
          | throw error => exact settles _ remaining
          | step statement next => simp [Task.answer, remaining] at answered
    · rw [unbegun]
  simp [clear] at owed

/-- Where each score is written while what its request has read still holds, every stored
score is right whenever no request is in progress. -/
theorem scores_right_at_rest {t : Tables} {calls : ι → Call} {w : Requests ι}
    (keyed : Keyed t) (scored : ∀ parcel ∈ t.parcels, Scored t parcel)
    (named : ∀ index, (calls index).NamesStatus)
    (runs : World.Runs (api ι) (freshScores ι) (.start t {} fun index => (calls index).serve) w)
    (rest : AtRest calls w) : ∀ parcel ∈ w.db.parcels, Scored w.db parcel := by
  have initial : Consistent (World.start t {} fun index => (calls index).serve) := by
    refine ⟨keyed, fun index program runs => ?_, fun parcel member wrong => ?_⟩
    · cases runs
      exact settles_serve (calls index) (named index)
    · exact absurd (scored parcel member) wrong
  have consistent := World.Runs.induction (fun _ _ => Consistent.steps) initial runs
  exact consistent.scored rest

/-! ## A score of an old count -/

/-- A registration of the parcel, and a verification of its evidence. -/
def competingCalls : Bool → Call
  | true => .patchParcel ⟨0, by decide⟩ none (some "registered")
  | false => .patchEvidence ⟨1, by decide⟩ { status := some "verified" }

/-- A pending parcel with one document under review. -/
def pendingTables : Tables where
  parcels := [{
    id := ⟨0, by decide⟩, titleNumber := "NG-LA-0001", trustScore := 10, createdAt := 0
    updatedAt := 0
    details := {
      ownerName := "A. Bello", locationAddress := "1 Broad Street", state := "Lagos"
      lga := "Eti-Osa", areaSqm := "500", parcelType := "residential" } }]
  evidence := [{
    id := ⟨1, by decide⟩, parcelId := ⟨0, by decide⟩, documentType := "survey_plan"
    fileName := "plan.pdf", uploadedAt := 0 }]

abbrev pendingWorld : Requests Bool :=
  .start pendingTables {} fun index => (competingCalls index).serve

/-- The requests take steps in this order. -/
def inTurn (indices : List Bool) : List (Action Bool Env) :=
  indices.map fun index => .step index ⟨⟨2, by decide⟩, 1, "NG-LA-0002"⟩

/-- One request after the other. -/
theorem scores_right_at_rest_alone : ∃ w,
    World.Runs (api Bool) (freshScores Bool) pendingWorld w ∧ AtRest competingCalls w ∧
      (∃ parcel ∈ w.db.parcels, parcel.trustScore = 62) ∧
        ∀ parcel ∈ w.db.parcels, Scored w.db parcel := by
  have observed : World.Observed (api Bool) (freshScores Bool) pendingWorld
      (inTurn [true, true]) (inTurn [false, false, false, false])
      (fun _ w => (∀ index, (w.task index).answer.isSome) ∧
        ∃ parcel ∈ w.db.parcels, parcel.trustScore = 62) := by
    decide +kernel
  obtain ⟨_, w, first, runs, answered, score⟩ := observed.runs
  have rest : AtRest competingCalls w := fun index => .inl (answered index)
  refine ⟨w, first.trans runs, rest, score, ?_⟩
  refine scores_right_at_rest ⟨by decide, by decide, by decide⟩ (by unfold Scored; decide)
    (fun index => ?_) (first.trans runs) rest
  cases index <;> simp [competingCalls, Call.NamesStatus]

/-- The registration has counted the verified evidence before the other request verifies it. -/
theorem score_stale_at_rest : ∃ w, Keyed pendingTables ∧
    (∀ parcel ∈ pendingTables.parcels, Scored pendingTables parcel) ∧
    (∀ index, (competingCalls index).NamesStatus) ∧
    World.Reaches (api Bool) pendingWorld w ∧ AtRest competingCalls w ∧
      ∃ parcel ∈ w.db.parcels, ¬ Scored w.db parcel := by
  have observed : World.Observed (api Bool) .always pendingWorld
      (inTurn [true, false, false, false, false]) (inTurn [true])
      (fun _ w => (∀ index, (w.task index).answer.isSome) ∧
        ∃ parcel ∈ w.db.parcels,
          parcel.trustScore ≠ computeTrustScore parcel.status (w.db.verified parcel.id)) := by
    decide +kernel
  obtain ⟨_, w, first, runs, answered, wrong⟩ := observed.runs
  refine ⟨w, ⟨by decide, by decide, by decide⟩, by unfold Scored; decide, fun index => ?_,
    first.trans runs, fun index => .inl (answered index), wrong⟩
  cases index <;> simp [competingCalls, Call.NamesStatus]

end Runs

end LandVault.ApiServer
