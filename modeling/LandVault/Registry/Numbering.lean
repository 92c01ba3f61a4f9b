import LandVault.ParcelRows
import LandVault.Tenancy

/-!
# Parcel numbers

The counter of a country is incremented in the transaction that inserts the parcel with the
number, and the row of the counter is locked until that transaction ends. So the numbers of a
country are those from 1 to its counter, without a gap, in the order of the commits: a
registration that fails gives its number back.
-/

set_option autoImplicit false

namespace LandVault

open Kernel Kernel.Audit Identity Registry Spatial Evidence Library.Programs
open Library.JsonText Library.Numerals Library.ReadCommitted Python

/-! ## The numbers of a country -/

/-- The numbers of the parcels of a country, in the order of the table. -/
def Tables.numbers (t : Tables) (code : String) : List String :=
  (t.parcels.filter (·.countryCode = code)).filterMap (·.parcelNumber)

/-- The numbers of each country are those from 1 to its counter, and the countries that have a
counter have codes of two letters. -/
structure Gapless (t : Tables) : Prop where
  numbers : ∀ code, t.numbers code =
    (List.range ((t.counter code).getD 0)).map fun i => formatParcelNumber code (i + 1)
  codes : ∀ code value, t.counter code = some value → isCountryCode code = true

/-- The write neither inserts a parcel nor allocates a number. -/
def Write.Numberless : Write → Prop
  | .insertParcel _ | .upsertCounter _ _ => False
  | _ => True

section Numbers

variable {t : Tables} {w : Write} {ws : List Write}

theorem numbers_of_frozen {rows rows' : List ParcelRecord}
    (same : rows'.map (Entity.frozen .parcel) = rows.map (Entity.frozen .parcel)) (code : String) :
    (rows'.filter (·.countryCode = code)).filterMap (·.parcelNumber) =
      (rows.filter (·.countryCode = code)).filterMap (·.parcelNumber) := by
  have blanked : ∀ rows : List ParcelRecord,
      ((rows.map (Entity.frozen .parcel)).filter (·.countryCode = code)).filterMap
        (·.parcelNumber) = (rows.filter (·.countryCode = code)).filterMap (·.parcelNumber) := by
    intro rows
    rw [List.filter_map, List.filterMap_map]
    rfl
  rw [← blanked rows', ← blanked rows, same]

/-- Other writes leave the numbers and the counters. -/
theorem numbers_apply (unique : t.keys.Nodup) (stands : Stands t w) (steady : Steady w)
    (numberless : w.Numberless) (code : String) :
    (t.apply w).numbers code = t.numbers code ∧ (t.apply w).counter code = t.counter code := by
  constructor
  · refine numbers_of_frozen ?_ code
    cases w with
    | insertParcel row => exact numberless.elim
    | updateParcel stored row => exact frozen_update .parcel unique stands steady
    | _ => rfl
  · rw [Tables.counter_apply]
    cases w with
    | upsertCounter code' value => exact numberless.elim
    | _ => rfl

theorem numbers_applyAll (unique : t.keys.Nodup) (grounded : steadily.Grounded t ws)
    (steady : ∀ w ∈ ws, Steady w) (numberless : ∀ w ∈ ws, w.Numberless) (code : String) :
    (engine.applyAll t ws).numbers code = t.numbers code ∧
      (engine.applyAll t ws).counter code = t.counter code := by
  induction ws generalizing t with
  | nil => exact ⟨rfl, rfl⟩
  | cons w ws ih =>
      obtain ⟨⟨absent, stands⟩, rest⟩ := grounded
      obtain ⟨numbers, counter⟩ := ih (engine.keys_apply_nodup unique absent) rest
        (fun w member => steady w (List.mem_cons_of_mem _ member))
        fun w member => numberless w (List.mem_cons_of_mem _ member)
      obtain ⟨numbers', counter'⟩ := numbers_apply unique stands (steady w List.mem_cons_self)
        (numberless w List.mem_cons_self) code
      exact ⟨numbers.trans numbers', counter.trans counter'⟩

theorem Gapless.of_same (numbered : Gapless t) {t' : Tables}
    (same : ∀ code, t'.numbers code = t.numbers code ∧ t'.counter code = t.counter code) :
    Gapless t' where
  numbers := by
    intro code
    rw [(same code).1, (same code).2]
    exact numbered.numbers code
  codes := fun code value found => numbered.codes code value ((same code).2 ▸ found)

/-- The number after the last one, and the parcel that has it. -/
theorem Gapless.register (numbered : Gapless t) {record : ParcelRecord} {value : Nat}
    (next : value = (t.counter record.countryCode).getD 0 + 1)
    (number : record.parcelNumber = some (formatParcelNumber record.countryCode value))
    (valid : isCountryCode record.countryCode = true) :
    Gapless ((t.apply (.upsertCounter record.countryCode value)).apply (.insertParcel record)) := by
  have counter : ∀ code, ((t.apply (.upsertCounter record.countryCode value)).apply
      (.insertParcel record)).counter code =
      if record.countryCode = code then some value else t.counter code := by
    simp only [Tables.counter_apply, implies_true]
  have numbers : ∀ code, ((t.apply (.upsertCounter record.countryCode value)).apply
      (.insertParcel record)).numbers code =
      t.numbers code ++ ([record].filter (·.countryCode = code)).filterMap (·.parcelNumber) := by
    intro code
    change (List.filter _ (t.parcels ++ [record])).filterMap _ = _
    rw [List.filter_append, List.filterMap_append]
    rfl
  constructor
  · intro code
    rw [counter, numbers, numbered.numbers code]
    by_cases same : record.countryCode = code
    · subst same
      simp [next, number, List.range_succ]
    · simp [same]
  · intro code last found
    rw [counter] at found
    split at found
    · rename_i same
      exact same ▸ valid
    · exact numbered.codes code last found

/-- A number names its country and its place. -/
theorem formatParcelNumber_inj {code code' : String} {value value' : Nat}
    (valid : isCountryCode code = true) (valid' : isCountryCode code' = true)
    (same : formatParcelNumber code value = formatParcelNumber code' value') :
    code = code' ∧ value = value' := by
  have letters : ∀ {code : String}, isCountryCode code = true →
      ∃ a b, code.toList = [a, b] := by
    intro code valid
    unfold isCountryCode at valid
    split at valid
    · rename_i a b same
      exact ⟨a, b, same⟩
    · cases valid
  obtain ⟨a, b, spelled⟩ := letters valid
  obtain ⟨a', b', spelled'⟩ := letters valid'
  have texts := congrArg String.toList same
  simp only [formatParcelNumber, String.toList_append, spelled, spelled', String.toList_ofList,
    List.append_assoc, List.cons_append, List.nil_append, List.append_cancel_left_eq,
    List.cons.injEq] at texts
  obtain ⟨first, second, digits⟩ := texts
  exact ⟨String.toList_inj.mp (by rw [spelled, spelled', first, second]), padded_inj digits⟩

/-- A number belongs to one parcel. -/
theorem Gapless.injective (numbered : Gapless t) {parcel parcel' : ParcelRecord}
    (member : parcel ∈ t.parcels) (member' : parcel' ∈ t.parcels) {number : String}
    (given : parcel.parcelNumber = some number) (given' : parcel'.parcelNumber = some number) :
    parcel = parcel' := by
  have placed : ∀ parcel ∈ t.parcels, parcel.parcelNumber = some number →
      ∃ value, isCountryCode parcel.countryCode = true ∧
        number = formatParcelNumber parcel.countryCode value := by
    intro parcel member given
    have listed : number ∈ t.numbers parcel.countryCode :=
      List.mem_filterMap.mpr ⟨parcel, List.mem_filter.mpr ⟨member, by simp⟩, given⟩
    rw [numbered.numbers] at listed
    obtain ⟨i, below, rfl⟩ := List.mem_map.mp listed
    refine ⟨i + 1, ?_, rfl⟩
    cases counted : t.counter parcel.countryCode with
    | none => simp [counted] at below
    | some value => exact numbered.codes _ value counted
  obtain ⟨value, valid, rfl⟩ := placed parcel member given
  obtain ⟨value', valid', same⟩ := placed parcel' member' given'
  obtain ⟨country, rfl⟩ := formatParcelNumber_inj valid valid' same
  have distinct : (t.numbers parcel.countryCode).Nodup := by
    rw [numbered.numbers]
    refine List.nodup_range.map fun i j same => ?_
    have places := (formatParcelNumber_inj valid valid same).2
    omega
  have all : ∀ (rows : List ParcelRecord), (rows.filterMap (·.parcelNumber)).Nodup →
      parcel ∈ rows → parcel' ∈ rows → parcel = parcel' := by
    intro rows nodup here there
    induction rows with
    | nil => cases here
    | cons row rows ih =>
        rcases List.mem_cons.mp here with rfl | later
        · rcases List.mem_cons.mp there with rfl | later'
          · rfl
          · rw [List.filterMap_cons, given] at nodup
            refine absurd ?_ (List.nodup_cons.mp nodup).1
            exact List.mem_filterMap.mpr ⟨parcel', later', given'⟩
        · rcases List.mem_cons.mp there with rfl | later'
          · rw [List.filterMap_cons, given'] at nodup
            refine absurd ?_ (List.nodup_cons.mp nodup).1
            exact List.mem_filterMap.mpr ⟨parcel, later, given⟩
          · refine ih ?_ later later'
            rw [List.filterMap_cons] at nodup
            split at nodup
            · exact nodup
            · exact (List.nodup_cons.mp nodup).2
  exact all _ distinct (List.mem_filter.mpr ⟨member, by simp⟩)
    (List.mem_filter.mpr ⟨member', by simp [country]⟩)

end Numbers

/-! ## Runs -/

section Runs

variable {ι : Type} [DecidableEq ι] {base t : Tables} {fresh : Tables → Memo → Write → Prop}
  {platform : ServicePlatform} {ctx : ι → ExecutionContext} {call : ι → BackendCall}
  {ws : List Write} {tables : Tables}
  {w : World ι DbStatement PyExc (ServiceAnswer ⊕ IdentityAnswer) (Database ι) DbSession}

theorem Write.numberless_of_context {w : Write} (other : w.context ≠ .registry) :
    w.Numberless := by
  cases w with
  | insertParcel row => exact other rfl
  | upsertCounter code value => exact other rfl
  | _ => trivial

/-- **One commit.** -/
theorem Enters.numbered {normalise : Number → Number} {ctx : ExecutionContext}
    {request : ParcelRequest} (enters : Enters fresh normalise ctx t request ws)
    (makes : steadily.Makes t ws) (numbered : Gapless t) :
    Gapless (engine.applyAll t ws) := by
  have unchanged : (∀ w ∈ ws, w.Numberless) → Gapless (engine.applyAll t ws) := fun numberless =>
    numbered.of_same (numbers_applyAll makes.unique makes.grounded (steady_makes makes) numberless)
  have overwriting : ∀ {request new ws'}, Overwritten fresh ctx request new ws' →
      ∀ w ∈ ws', w.Numberless := by
    intro request new ws' overwritten w member
    cases overwritten with
    | same => cases member
    | written => rw [List.mem_singleton.mp member]; trivial
  cases enters with
  | get => exact numbered
  | list => exact numbered
  | @create countryCode details record value owners row number _ country short =>
      obtain ⟨⟨absent, next⟩, ⟨absent', _⟩, grounded⟩ := makes.grounded
      have unique := engine.keys_apply_nodup (engine.keys_apply_nodup makes.unique absent) absent'
      have steady := steady_makes makes
      refine (numbered.register next number (isCountryCode_of_short country short)).of_same
        (numbers_applyAll unique grounded ?_ ?_)
      · exact fun w member => steady w (List.mem_cons_of_mem _ (List.mem_cons_of_mem _ member))
      · intro w member
        rcases List.mem_append.mp member with owner | status
        · obtain ⟨_, _, rfl⟩ := List.mem_map.mp owner
          trivial
        · rw [List.mem_singleton.mp status]
          trivial
  | update named registered overwritten owned =>
      refine unchanged fun w member => ?_
      rcases List.mem_append.mp member with mine | owner
      · exact overwriting overwritten w mine
      · obtain ⟨_, _, rfl⟩ := List.mem_map.mp owner
        trivial
  | archive named registered overwritten declares permitted =>
      refine unchanged fun w member => ?_
      rcases List.mem_append.mp member with mine | status
      · exact overwriting overwritten w mine
      · rw [List.mem_singleton.mp status]
        trivial
  | setGeometryReference named overwritten => exact unchanged (overwriting overwritten)

/-- **Parcel numbers are gapless and unique**, whatever the interleaving, and whichever
registrations fail or crash, of whatever tenants: in every reachable state the parcels of each
country have exactly the numbers from 1 to its counter, in the order in which they were
committed, and no number belongs to two parcels, of whatever countries. -/
theorem parcel_numbers (unique : tables.keys.Nodup) (numbered : Gapless tables)
    (reaches : World.Reaches (postgres ι) (backendWorld platform ctx call tables) w) :
    Gapless w.db.tables ∧ ∀ parcel ∈ w.db.tables.parcels, ∀ parcel' ∈ w.db.tables.parcels,
      ∀ number, parcel.parcelNumber = some number → parcel'.parcelNumber = some number →
        parcel = parcel' := by
  obtain ⟨_, log, chronicle⟩ := chronicle_of_reaches unique .refl reaches
  have kept : Gapless w.db.tables := by
    refine chronicle.serial.induction (I := Gapless) ?_ ?_ numbered
    · rintro t _ makes ⟨row, rfl⟩ numbered
      exact numbered.of_same fun code => ⟨rfl, rfl⟩
    · intro index result t ws _ makes accounts numbered
      rcases accounts.registry with ⟨request, _, enters⟩ | foreign
      · exact enters.numbered makes numbered
      · exact numbered.of_same (numbers_applyAll makes.unique makes.grounded (steady_makes makes)
          fun w member => Write.numberless_of_context (foreign w member))
  exact ⟨kept, fun _ member _ member' _ given given' => kept.injective member member' given given'⟩

/-- The settler registers a parcel. -/
def registration : BackendCall := .service (.parcel (.create (some "NG") {}))

/-- Three registrations on three days, which are told apart by the day. -/
def registrations : World (Fin 3) DbStatement PyExc (ServiceAnswer ⊕ IdentityAnswer)
    (Database (Fin 3)) DbSession :=
  backendWorld (platformAt 59) (fun _ => settler) (fun _ => registration) villageTables

/-- The write advances the counter of the country to this value. -/
def Write.advancesTo (code : String) (value : Nat) : Write → Bool
  | .upsertCounter code' value' => code' = code && value' = value
  | _ => false

/-- A registration that crashes after its counter was advanced leaves no gap: the parcel that is
registered after it has the next number. -/
theorem parcel_numbers_registrations : ∃ w w', World.Reaches (postgres (Fin 3)) registrations w ∧
    World.Reaches (postgres (Fin 3)) w w' ∧
    (w.task 1).session.pending.any (Write.advancesTo "NG" 2) = true ∧
    (w'.task 1).program.isNone = true ∧
    w'.db.tables.numbers "NG" = [formatParcelNumber "NG" 1, formatParcelNumber "NG" 2] ∧
    Gapless w'.db.tables := by
  have observed : World.Observed (postgres (Fin 3)) .always registrations
      (turns sampleNow 0 ((List.range 12).map fun i => sampleId (16 + i)) ++
        turns (sampleDay 2) 1 ((List.range 6).map fun i => sampleId (32 + i)))
      (.crash 1 :: turns (sampleDay 3) 2 ((List.range 12).map fun i => sampleId (48 + i)))
      (fun w w' => (w.task 1).session.pending.any (Write.advancesTo "NG" 2) = true ∧
        (w'.task 1).program.isNone = true ∧
        w'.db.tables.numbers "NG" = [formatParcelNumber "NG" 1, formatParcelNumber "NG" 2]) := by
    decide +kernel
  obtain ⟨w, w', before, runs, advanced, crashed, numbers⟩ := observed.runs
  have start : Gapless villageTables := by
    refine ⟨fun code => ?_, fun code value absurd => by cases absurd⟩
    refine (List.filterMap_eq_nil_iff.mpr fun parcel member => ?_)
    have all : ∀ parcel ∈ villageTables.parcels, parcel.parcelNumber = none := by decide
    exact all parcel (List.mem_of_mem_filter member)
  exact ⟨w, w', before, runs, advanced, crashed, numbers,
    (parcel_numbers (by decide) start (before.trans runs)).1⟩

end Runs
end LandVault
