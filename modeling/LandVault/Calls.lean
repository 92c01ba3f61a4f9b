import LandVault.Registry.Mutations
import LandVault.Spatial.Submissions

/-!
# Calls of the backend, among others

Any number of calls of any services, each in its unit of work, in any interleaving and with
a crash possible anywhere. What a call has pending when it ends stays in the tables of one
context and in the scope of its transaction, and is what its request may commit
(`Accounts`). The committed tables go through a sequence of such commits, one for each call
whose unit of work has ended with a value (`calls_chronicle`).

What the program of a call ends with is the result of its unit of work, the commit included.
The response is another matter: `attribution_router` sends it after the commit, and the other
routers, whose session depends on the request, before it.
-/

set_option autoImplicit false

namespace LandVault

open Kernel Kernel.Audit Identity Registry Spatial Evidence Library.Programs
open Library.ReadCommitted Python

/-! ## Lists of writes that the policies admit -/

/-- The policies admit each of the writes, where those before it have been made. -/
def Granted (scope : Scope) : Tables → List Write → Prop
  | _, [] => True
  | t, w :: ws => Covered scope t w ∧ Granted scope (t.apply w) ws

/-- Every user of `t` is one of `t'`, of the same tenant. -/
def Peopled (t t' : Tables) : Prop :=
  ∀ user ∈ t.identityUsers, ∃ user' ∈ t'.identityUsers,
    user'.id = user.id ∧ user'.tenantId = user.tenantId

section Peopled

variable {t t' t'' : Tables} {scope : Scope} {w : Write} {ws : List Write}

theorem Peopled.refl (t : Tables) : Peopled t t := fun user member => ⟨user, member, rfl, rfl⟩

theorem Peopled.trans (first : Peopled t t') (second : Peopled t' t'') : Peopled t t'' := by
  intro user member
  obtain ⟨user', member', id, tenantId⟩ := first user member
  obtain ⟨user'', member'', id', tenantId'⟩ := second user' member'
  exact ⟨user'', member'', id'.trans id, tenantId'.trans tenantId⟩

/-- The same write on both sides. -/
theorem Peopled.apply (peopled : Peopled t t') (w : Write) : Peopled (t.apply w) (t'.apply w) := by
  cases w with
  | insertUser row =>
      intro user member
      rcases List.mem_append.mp member with old | new
      · obtain ⟨user', member', same⟩ := peopled user old
        exact ⟨user', List.mem_append_left _ member', same⟩
      · exact ⟨user, List.mem_append_right _ new, rfl, rfl⟩
  | updateUser stored row =>
      intro user member
      obtain ⟨old, stored, rfl⟩ := List.mem_map.mp member
      obtain ⟨user', member', id, tenantId⟩ := peopled old stored
      refine ⟨_, List.mem_map_of_mem member', ?_⟩
      dsimp only
      split <;> split <;> exact ⟨id, tenantId⟩
  | _ => exact peopled

/-- A write on one side. -/
theorem Peopled.write (t : Tables) (w : Write) : Peopled t (t.apply w) := by
  intro user member
  cases w with
  | insertUser row => exact ⟨user, List.mem_append_left _ member, rfl, rfl⟩
  | updateUser stored row =>
      refine ⟨_, List.mem_map_of_mem member, ?_⟩
      dsimp only
      split <;> exact ⟨rfl, rfl⟩
  | _ => exact ⟨user, member, rfl, rfl⟩

theorem Peopled.advances (advances : steadily.Advances t t') : Peopled t t' :=
  advances.induction (I := Peopled t)
    (fun _ _ makes peopled => makes.induction (I := Peopled t)
      (fun _ w _ _ _ peopled => peopled.trans (.write _ w)) peopled) (.refl t)

theorem Covered.mono (peopled : Peopled t t') (covered : Covered scope t w) :
    Covered scope t' w := by
  have sessions : ∀ row : SessionRecord, sessionMapper.sees t scope row = true →
      sessionMapper.sees t' scope row = true := by
    intro row sees
    obtain ⟨user, member, same, visible⟩ :
        ∃ user ∈ t.identityUsers, user.id = row.userId ∧ scope.sees user.tenantId = true := by
      simpa [sessionMapper] using sees
    obtain ⟨user', member', id, tenantId⟩ := peopled user member
    refine List.any_eq_true.mpr ⟨user', member', ?_⟩
    simp [id, tenantId, same, visible]
  cases w with
  | insertSession row => exact sessions row covered
  | updateSession stored row => exact sessions stored covered
  | _ => exact covered

/-- Without settings the policies admit nothing that they would not admit with them. -/
theorem Covered.of_unset (covered : Covered .unset t w) (scope : Scope) : Covered scope t w := by
  cases w with
  | insertAudit row | upsertCounter code value => trivial
  | insertSession row | updateSession stored row => simp [Covered, sessionMapper, Scope.sees] at covered
  | _ => cases covered

theorem Granted.mono (peopled : Peopled t t') (granted : Granted scope t ws) :
    Granted scope t' ws := by
  induction ws generalizing t t' with
  | nil => trivial
  | cons w ws ih => exact ⟨granted.1.mono peopled, ih (peopled.apply w) granted.2⟩

theorem granted_append {before : List Write} :
    Granted scope t (before ++ [w]) ↔
      Granted scope t before ∧ Covered scope (engine.applyAll t before) w := by
  induction before generalizing t with
  | nil => simp [Granted]
  | cons first before ih => simp [Granted, ih, and_assoc, engine]

end Peopled

/-! ## What a call has pending -/

/-- What a transaction of a call may commit: writes in its scope, of its context but for audit
entries, that keep what no update assigns. -/
structure Warranted (context : Context) (scope : Scope) (t : Tables) (ws : List Write) : Prop where
  granted : Granted scope t ws
  preserves : ∀ w ∈ ws, Preserves w
  context : ∀ w ∈ ws, w.context = context ∨ Audits w

/-- The settings of the transaction are those of the call, or lost, and what it has pending
is warranted. -/
structure Scoped {ι : Type} (context : Context) (scope : Scope) (db : Database ι) (s : DbSession) :
    Prop where
  settings : s.memo.scope = scope ∨ s.memo.scope = .unset
  warranted : Warranted context scope db.tables s.pending

section Scoped

variable {ι : Type} [DecidableEq ι] {context : Context} {scope : Scope} {index : ι}
  {db db₁ : Database ι} {s : DbSession} {t t' : Tables}
  {A : Admission ι DbStatement (Database ι) DbSession (Choice Env)} {C : Choice Env → Prop}

theorem Warranted.nil : Warranted context scope t [] :=
  ⟨trivial, fun _ member => absurd member List.not_mem_nil,
    fun _ member => absurd member List.not_mem_nil⟩

theorem Warranted.later {ws : List Write} (warranted : Warranted context scope t ws)
    (advances : steadily.Advances t t') : Warranted context scope t' ws :=
  ⟨warranted.granted.mono (.advances advances), warranted.preserves, warranted.context⟩

theorem Warranted.append {ws : List Write} {w : Write} (warranted : Warranted context scope t ws)
    (covered : Covered scope (engine.applyAll t ws) w) (preserves : Preserves w)
    (inContext : w.context = context ∨ Audits w) : Warranted context scope t (ws ++ [w]) where
  granted := granted_append.mpr ⟨warranted.granted, covered⟩
  preserves := by
    intro w' member
    rcases List.mem_append.mp member with old | new
    · exact warranted.preserves w' old
    · exact List.mem_singleton.mp new ▸ preserves
  context := by
    intro w' member
    rcases List.mem_append.mp member with old | new
    · exact warranted.context w' old
    · exact List.mem_singleton.mp new ▸ inContext

theorem Scoped.later (inScope : Scoped context scope db s)
    (turn : steadily.Turn Env index db s db₁) : Scoped context scope db₁ s :=
  ⟨inScope.settings, inScope.warranted.later turn.advances⟩

/-- An compliant statement leaves a scoped session so. -/
theorem meets_compliant {β : Type} (statement : DbStatement β) (compliant : Compliant context statement)
    (inScope : Scoped context scope db s) :
    Meets A C steadily.contract index (fun _ => Scoped context scope) (fun _ => Scoped context scope)
      (.perform statement) db s := by
  cases statement with
  | query run =>
      have settings : ∀ memo answer w v, v.memo = s.memo → run v = .ok ⟨memo, answer, w⟩ →
          memo.scope = scope ∨ memo.scope = .unset := by
        intro memo answer w v same ran
        rw [(compliant v memo answer w ran).1, same]
        exact inScope.settings
      refine Discipline.meets_query (fun _ turn _ => inScope.later turn) ?_ ?_ ?_
      · intro db₁ db' now env e w turn same raised
        exact ⟨by simpa [Session.abort] using inScope.settings, .nil⟩
      · intro db₁ db' now env memo a turn same whole ran
        refine ⟨settings memo _ _ _ rfl ran, ?_⟩
        rw [same]
        simpa using (inScope.later turn).warranted
      · intro db₁ db' now env memo a w turn same whole _ ran
        have fits := (compliant _ memo _ _ ran).2 a rfl w rfl
        refine ⟨fits.stands, settings memo _ _ _ rfl ran, ?_⟩
        rw [same]
        refine (inScope.later turn).warranted.append ?_ fits.preserves fits.context
        have covered : Covered s.memo.scope (engine.view db₁ s) w := fits.covered
        rcases inScope.settings with settled | lost
        · exact settled ▸ covered
        · exact (lost ▸ covered : Covered .unset _ w).of_unset scope
  | eager run =>
      refine Discipline.meets_eager (fun _ _ turn _ => inScope.later turn)
        (fun _ _ _ turn _ => inScope.later turn) ?_
      intro db₁ db' env a w turn ran same
      exact ⟨compliant _ _ _ _ ran, fun advances =>
        ⟨inScope.settings, inScope.warranted.later advances⟩⟩
  | choose pick => exact Discipline.meets_choose fun _ _ turn => inScope.later turn
  | commit => exact compliant.elim
  | rollback => exact Discipline.meets_rollback fun _ _ _ _ => ⟨.inr rfl, .nil⟩

theorem meets_setConfig (inScope : Scoped context .unset db s) (pending : s.pending = []) :
    Meets A C steadily.contract index (fun _ => Scoped context scope) (fun _ => Scoped context scope)
      (setConfig scope) db s := by
  have lost : s.memo.scope = scope ∨ s.memo.scope = .unset := .inr (by simpa using inScope.settings)
  refine Discipline.meets_query (fun _ _ _ => ⟨lost, pending ▸ .nil⟩) ?_ ?_ ?_
  · intro db₁ db' now env e w turn same raised
    exact ⟨by simpa [Session.abort] using lost, .nil⟩
  · intro db₁ db' now env memo a turn same whole ran
    cases ran
    exact ⟨.inl rfl, by simpa [pending] using Warranted.nil⟩
  · intro db₁ db' now env memo a w turn same whole _ ran
    cases ran

end Scoped

theorem getDbSession_eq_transaction {α : Type} (ctx : ExecutionContext) (request : Request α) :
    getDbSession ctx request = transaction PyExc.isHttp (setConfig (scopeOf ctx)) request := by
  unfold getDbSession transaction enclose
  congr 1
  funext _
  congr 1
  funext e
  cases e <;> rfl

/-- The calls of any number of clients, about to start. The task of a call is its unit of
work, which ends with its commit. -/
abbrev backendWorld {ι : Type} (platform : ServicePlatform) (ctx : ι → ExecutionContext)
    (call : ι → BackendCall) (tables : Tables) :
    World ι DbStatement PyExc (ServiceAnswer ⊕ IdentityAnswer) (Database ι) DbSession :=
  World.start { tables } freshSession fun index =>
    getDbSession (ctx index) ((call index).serve platform (ctx index))

/-! ## What a call commits -/

/-- The writes that come with the result of a call. -/
def Owes (fresh : Tables → Memo → Write → Prop) (platform : ServicePlatform)
    (ctx : ExecutionContext) (t : Tables) (ws : List Write) :
    BackendCall → Except PyExc (ServiceAnswer ⊕ IdentityAnswer) → Prop
  | .service (.parcel request), .ok _ => Enters fresh platform.normalise ctx t request ws
  | .service (.geometry request), .ok _ => Surveys t request ws
  | .service (.parcel _), .error _ | .service (.geometry _), .error _ => ws = []
  | _, _ => True

/-- What is known of a commit of a call, over the tables that it is made on. -/
structure Accounts (base : Tables) (fresh : Tables → Memo → Write → Prop)
    (platform : ServicePlatform) (ctx : ExecutionContext) (call : BackendCall)
    (result : Except PyExc (ServiceAnswer ⊕ IdentityAnswer)) (t : Tables) (ws : List Write) :
    Prop where
  warranted : Warranted call.context (scopeOf ctx) t ws
  sited : ∀ w ∈ ws, w.Sited base t
  owes : Owes fresh platform ctx t ws call result

section Owes

variable {base t t' : Tables} {fresh : Tables → Memo → Write → Prop} {platform : ServicePlatform}
  {ctx : ExecutionContext} {call : BackendCall}
  {result : Except PyExc (ServiceAnswer ⊕ IdentityAnswer)} {ws : List Write}

theorem Owes.later (owes : Owes fresh platform ctx t ws call result)
    (advances : steadily.Advances t t') : Owes fresh platform ctx t' ws call result := by
  cases call with
  | auth request => cases result <;> trivial
  | service call =>
      cases call with
      | parcel request =>
          cases result with
          | ok a => exact Enters.later owes advances
          | error e => exact owes
      | geometry request =>
          cases result with
          | ok a => exact Surveys.later owes advances
          | error e => exact owes
      | _ => cases result <;> trivial

/-- Writes outside the Registry leave what is frozen, and refer to nothing. -/
theorem Warranted.steady {context : Context} {scope : Scope} (base : Tables)
    (warranted : Warranted context scope t ws) (other : context ≠ .registry) :
    (∀ w ∈ ws, Steady w) ∧ ∀ w ∈ ws, w.Sited base t := by
  constructor
  · intro w member
    rcases warranted.context w member with same | audits
    · exact (warranted.preserves w member).steady (same ▸ other)
    · exact audits.steady
  · intro w member
    rcases warranted.context w member with same | ⟨row, rfl⟩
    · cases w with
      | insertParcel row => exact absurd same.symm other
      | updateParcel stored row => exact absurd same.symm other
      | _ => trivial
    · trivial

end Owes

section Accounts

variable {base t : Tables} {fresh : Tables → Memo → Write → Prop} {platform : ServicePlatform}
  {ctx : ExecutionContext} {call : BackendCall}
  {result : Except PyExc (ServiceAnswer ⊕ IdentityAnswer)} {ws : List Write}

/-- Only calls of its services change the tables of a context. -/
theorem Accounts.foreign (accounts : Accounts base fresh platform ctx call result t ws)
    {context : Context} (other : call.context ≠ context) (kernel : context ≠ .kernel) :
    ∀ w ∈ ws, w.context ≠ context := by
  intro w member same
  rcases accounts.warranted.context w member with mine | ⟨row, rfl⟩
  · exact other (mine.symm.trans same)
  · exact kernel same.symm

/-- The tables of the Registry change by requests about parcels, as they may. -/
theorem Accounts.registry (accounts : Accounts base fresh platform ctx call result t ws) :
    (∃ request, call = .service (.parcel request) ∧
      Enters fresh platform.normalise ctx t request ws) ∨ ∀ w ∈ ws, w.context ≠ .registry := by
  cases call with
  | auth request => exact .inr (accounts.foreign (fun absurd => by cases absurd) nofun)
  | service call =>
      cases call with
      | parcel request =>
          cases result with
          | ok a => exact .inl ⟨request, rfl, accounts.owes⟩
          | error e =>
              have nothing : ws = [] := accounts.owes
              exact .inr (by simp [nothing])
      | _ => exact .inr (accounts.foreign (fun absurd => by cases absurd) nofun)

/-- The tables of the Spatial context change by requests about geometries, as they may. -/
theorem Accounts.spatial (accounts : Accounts base fresh platform ctx call result t ws) :
    (∃ request, call = .service (.geometry request) ∧ Surveys t request ws) ∨
      ∀ w ∈ ws, w.context ≠ .spatial := by
  cases call with
  | auth request => exact .inr (accounts.foreign (fun absurd => by cases absurd) nofun)
  | service call =>
      cases call with
      | geometry request =>
          cases result with
          | ok a => exact .inl ⟨request, rfl, accounts.owes⟩
          | error e =>
              have nothing : ws = [] := accounts.owes
              exact .inr (by simp [nothing])
      | _ => exact .inr (accounts.foreign (fun absurd => by cases absurd) nofun)

end Accounts

/-- A call has ended, with this result. -/
structure Discharges {ι : Type} (base : Tables) (fresh : Tables → Memo → Write → Prop)
    (platform : ServicePlatform) (ctx : ExecutionContext) (call : BackendCall)
    (result : Except PyExc (ServiceAnswer ⊕ IdentityAnswer)) (db : Database ι) (s : DbSession) :
    Prop where
  inScope : Scoped call.context (scopeOf ctx) db s
  steady : ∀ w ∈ s.pending, Steady w
  sited : ∀ w ∈ s.pending, w.Sited base db.tables
  owes : Owes fresh platform ctx db.tables s.pending call result

section Discharges

variable {ι : Type} [DecidableEq ι] {index : ι} {base : Tables}
  {fresh : Tables → Memo → Write → Prop} {platform : ServicePlatform} {ctx : ExecutionContext}
  {call : BackendCall} {result : Except PyExc (ServiceAnswer ⊕ IdentityAnswer)}
  {db db' : Database ι} {s : DbSession} {known : List Read}

omit [DecidableEq ι] in
theorem Discharges.accounts (discharges : Discharges base fresh platform ctx call result db s)
    (advances : steadily.Advances db.tables db'.tables) :
    Accounts base fresh platform ctx call result db'.tables s.pending where
  warranted := discharges.inScope.warranted.later advances
  sited := fun w member => (discharges.sited w member).later advances
  owes := discharges.owes.later advances

omit [DecidableEq ι] in
theorem Scoped.discharges (inScope : Scoped call.context (scopeOf ctx) db s)
    (other : call.context ≠ .registry)
    (owes : Owes fresh platform ctx db.tables s.pending call result) :
    Discharges base fresh platform ctx call result db s := by
  obtain ⟨steady, sited⟩ := inScope.warranted.steady base other
  exact ⟨inScope, steady, sited, owes⟩

/-- **What a call ends with**, whatever is committed beside it. -/
theorem Tracking.discharges (tracking : Tracking base (fun _ => True) known [] db s)
    (inScope : Scoped call.context (scopeOf ctx) db s) :
    Tracks base fresh index (fun a => Discharges base fresh platform ctx call (.ok a))
      (fun e db s => e.isHttp = true → Discharges base fresh platform ctx call (.error e) db s)
      (call.serve platform ctx) db s := by
  have walks : Tracks base fresh index (fun _ => Scoped call.context (scopeOf ctx))
      (fun _ => Scoped call.context (scopeOf ctx)) (call.serve platform ctx) db s :=
    Every.meets (fun statement db s => meets_compliant statement) (call.proceeds platform ctx) inScope
  cases call with
  | auth request =>
      exact walks.mono (fun _ _ _ ends => ends.discharges (fun absurd => by cases absurd) trivial)
        fun _ _ _ ends _ => ends.discharges (fun absurd => by cases absurd) trivial
  | service call =>
      cases call with
      | parcel request =>
          have enters : Tracks base fresh index
              (fun _ => Entered base fresh platform.normalise ctx request) Voids
              ((BackendCall.service (.parcel request)).serve platform ctx) db s :=
            Meets.bind (N := fun _ => Entered base fresh platform.normalise ctx request)
              ((tracking.parcelRequest request).bind fun _ _ _ entered => entered)
              fun _ _ _ entered => entered
          refine (walks.and enters).mono ?_ ?_
          · rintro a db s ⟨ends, ws, enters, tracking⟩
            obtain ⟨rfl, _, steady, sited, _, _⟩ := tracking
            exact ⟨ends, steady, sited, enters⟩
          · rintro e db s ⟨ends, voids⟩ answered
            have nothing := voids answered
            exact ⟨ends, by simp [nothing], by simp [nothing], nothing⟩
      | geometry request =>
          have surveys : Tracks base fresh index (fun _ => Surveyed base request) Voids
              ((BackendCall.service (.geometry request)).serve platform ctx) db s :=
            Meets.bind (N := fun _ => Surveyed base request)
              ((tracking.spatialRequest request).bind fun _ _ _ surveyed => surveyed)
              fun _ _ _ surveyed => surveyed
          refine (walks.and surveys).mono ?_ ?_
          · rintro a db s ⟨ends, ws, surveys, tracking⟩
            exact ends.discharges (fun absurd => by cases absurd) (tracking.pending ▸ surveys)
          · rintro e db s ⟨ends, voids⟩ answered
            exact ends.discharges (fun absurd => by cases absurd) (voids answered)
      | _ =>
          exact walks.mono (fun _ _ _ ends => ends.discharges (fun absurd => by cases absurd) trivial)
            fun _ _ _ ends _ => ends.discharges (fun absurd => by cases absurd) trivial

end Discharges

/-! ## Calls at once -/

section Calls

variable {ι : Type} [DecidableEq ι] {base : Tables} {fresh : Tables → Memo → Write → Prop}
  {platform : ServicePlatform} {ctx : ι → ExecutionContext} {call : ι → BackendCall}
  {tables : Tables}
  {w w' : World ι DbStatement PyExc (ServiceAnswer ⊕ IdentityAnswer) (Database ι) DbSession}

theorem transacting_start (unique : tables.keys.Nodup) :
    Transacting (engine.amid fresh (AllSited base)) steadily PyExc.isHttp
      (fun index a => Discharges base fresh platform (ctx index) (call index) (.ok a))
      (fun index e db s => e.isHttp = true →
        Discharges base fresh platform (ctx index) (call index) (.error e) db s)
      (backendWorld platform ctx call tables) where
  coherent := ⟨by simp [World.start], unique⟩
  follows := fun index =>
    .of_pending ⟨by simp [freshSession, World.start], unique, fun _ => rfl, Nat.le_refl _⟩ rfl
  stage := by
    intro index program remaining
    cases remaining
    dsimp only
    rw [getDbSession_eq_transaction]
    have proceeds := (call index).proceeds platform (ctx index)
    refine .opening (.perform trivial) (proceeds.imp fun _ => Compliant.reserved) (.of_now ?_)
    have opened : Scoped (call index).context .unset
        (backendWorld platform ctx call tables).db freshSession := ⟨.inl rfl, .nil⟩
    have tracking : Tracking base (fun _ => True) [] []
        (backendWorld platform ctx call tables).db freshSession :=
      ⟨rfl, .fresh, by simp, by simp, by simp [freshSession], trivial⟩
    refine ((meets_setConfig opened rfl).and
      (tracking.setConfig (lasting_true steadily) tolerant_voids _)).mono ?_ fun _ _ _ _ => trivial
    rintro _ db s ⟨inScope, tracking⟩
    exact tracking.discharges inScope

omit [DecidableEq ι] in
/-- What a call ends with accounts for its commit. -/
theorem calls_end (index : ι) :
    Ends (engine.amid fresh (AllSited base) :
        Admission ι DbStatement (Database ι) DbSession (Choice Env)) steadily PyExc.isHttp
      (fun a => Discharges base fresh platform (ctx index) (call index) (.ok a))
      (fun e db s => e.isHttp = true →
        Discharges base fresh platform (ctx index) (call index) (.error e) db s)
      (fun index result t ws => Accounts base fresh platform (ctx index) (call index) result t ws)
      index where
  returns_batch := fun _ _ _ discharges _ => discharges.steady
  concedes_batch := fun _ _ _ discharges answered _ => (discharges answered).steady
  returns := fun _ _ _ _ _ discharges _ advances _ _ => discharges.accounts advances
  concedes := fun _ _ _ _ _ discharges answered _ advances _ _ => (discharges answered).accounts advances

/-- A run while every parcel is sited is a sequence of transactions, and so is what follows. -/
theorem calls_chronicle (unique : tables.keys.Nodup)
    (before : World.Runs (postgres ι) (engine.amid fresh (AllSited base))
      (backendWorld platform ctx call tables) w)
    (runs : World.Runs (postgres ι) (engine.amid fresh (AllSited base)) w w') :
    ∃ log, Chronicle steadily
      (fun index result t ws => Accounts base fresh platform (ctx index) (call index) result t ws)
      w w' log := by
  have transacting := (Transacting.serial ⟨rfl, rfl⟩ calls_end (transacting_start unique) before).1
  exact (Transacting.serial ⟨rfl, rfl⟩ calls_end transacting runs).2

/-- What a commit makes of tables in which every parcel is sited. -/
theorem allSited_makes {t : Tables} {ws : List Write} (makes : steadily.Makes t ws)
    (written : ∀ w ∈ ws, w.Sited base t) (sited : AllSited base t) :
    AllSited base (engine.applyAll t ws) :=
  fun _ member => sited_of_advances (e := .parcel) ((Discipline.Advances.refl t).tail makes)
    (sited_of_viewed (e := .parcel) sited written member)

omit [DecidableEq ι] in
/-- Every parcel is sited at any time, if it is at the start. -/
theorem Serial.sited {α : Type} {R : ι → Except PyExc α → Tables → List Write → Prop}
    {t t' : Tables} {log : List (ι × Except PyExc α)} (serial : Serial steadily R t log t')
    (made : ∀ index result t ws, R index result t ws → ∀ w ∈ ws, w.Sited base t)
    (sited : AllSited base t) : AllSited base t' := by
  refine serial.induction (I := AllSited base) ?_ ?_ sited
  · rintro t _ makes ⟨row, rfl⟩ sited
    exact allSited_makes makes (fun w member => by rw [List.mem_singleton.mp member]; trivial) sited
  · intro index result t ws _ makes holds sited
    exact allSited_makes makes (made index result t ws holds) sited

/-- A run whose writes are `fresh` is a sequence of transactions from any of its states on, and
leaves every parcel sited: no references but those that were there at the start are dangling. -/
theorem chronicle_of_runs (unique : tables.keys.Nodup)
    (before : World.Runs (postgres ι) (engine.freshly fresh) (backendWorld platform ctx call tables) w)
    (runs : World.Runs (postgres ι) (engine.freshly fresh) w w') :
    AllSited tables w'.db.tables ∧ ∃ log, Chronicle steadily
      (fun index result t ws => Accounts tables fresh platform (ctx index) (call index) result t ws)
      w w' log := by
  have sited : ∀ w, World.Runs (postgres ι) (engine.amid fresh (AllSited tables))
      (backendWorld platform ctx call tables) w → AllSited tables w.db.tables := by
    intro w runs
    obtain ⟨log, chronicle⟩ := calls_chronicle unique .refl runs
    exact Serial.sited chronicle.serial (fun _ _ _ _ accounts => accounts.sited) (.start tables)
  have before := runs_amid sited before
  have runs := runs_amid (fun u runs => sited u (before.trans runs)) runs
  exact ⟨sited w' (before.trans runs), calls_chronicle unique before runs⟩

/-- So is every run. -/
theorem chronicle_of_reaches (unique : tables.keys.Nodup)
    (before : World.Reaches (postgres ι) (backendWorld platform ctx call tables) w)
    (reaches : World.Reaches (postgres ι) w w') :
    AllSited tables w'.db.tables ∧ ∃ log, Chronicle steadily
      (fun index result t ws =>
        Accounts tables (fun _ _ _ => True) platform (ctx index) (call index) result t ws)
      w w' log :=
  chronicle_of_runs unique (freely_of_reaches before) (freely_of_reaches reaches)

end Calls
end LandVault
