import Mathlib.Data.List.Sort
import LandVault.Kernel.Postgres
import LandVault.Python.Values

/-!
# Policies and the decision point

`app/kernel/authorization`: the decisions (`decisions.py`), the registry of policies with
the five that the platform registers itself (`policies.py`), and the decision point
(`pdp.py`), which asks the policies in the order of their priorities and denies when one
of them raises or none decides.

A policy is any function; an exception is one of its answers. The registry is a state that
an exception leaves as it is by then.
-/

set_option autoImplicit false

namespace LandVault.Kernel.Authorization

open LandVault.Kernel

/-! ## Decisions -/

/-- A value in the dict of a resource: a text, or an object that equals no text. -/
inductive Attribute where
  | text (value : String)
  | other (truth : Bool)
  deriving DecidableEq

/-- A dict whose keys are texts. -/
abbrev Attributes := String → Option Attribute

/-- `bool(d.get(key))`, for what `get` returns. -/
def carries : Option Attribute → Bool
  | none => false
  | some (.text value) => value != ""
  | some (.other truth) => truth

inductive Effect where
  | permit
  | deny
  deriving DecidableEq

structure Obligation where
  kind : String
  args : Attributes

structure Decision where
  effect : Effect
  reason : String
  obligations : List Obligation := []
  policyId : Option String := none

/-- `Decision.permit`. -/
def Decision.permitWith (reason policyId : String) : Decision :=
  { effect := .permit, reason, policyId := some policyId }

/-- `Decision.deny`. -/
def Decision.denyWith (reason policyId : String) : Decision :=
  { effect := .deny, reason, policyId := some policyId }

/-! ## Policies -/

/-- What `authorize` is asked, once its defaults are filled in. -/
structure Access where
  ctx : ExecutionContext
  action : String
  resource : Attributes
  env : Attributes

/-- `PolicyFn`: a decision, an abstention, or an exception. -/
abbrev PolicyFn := Access → Except PyExc (Option Decision)

structure Policy where
  id : String
  priority : Int
  description : String
  fn : PolicyFn

/-- `_super_admin_allows_everything`. -/
def superAdminAllowsEverything : PolicyFn := fun access =>
  if access.ctx.hasAnyRole ["super_admin"] then
    .ok (some (.permitWith "super admin" "platform.super_admin"))
  else .ok none

/-- The actions that `_anonymous_can_only_access_public_actions` permits. -/
def isPublicAction (action : String) : Bool :=
  "platform.public.".toList.isPrefixOf action.toList ||
    ["identity.register", "identity.login", "identity.refresh"].contains action

/-- `_anonymous_can_only_access_public_actions`. -/
def anonymousCanOnlyAccessPublicActions : PolicyFn := fun access =>
  if !access.ctx.isAnonymous then .ok none
  else if isPublicAction access.action then
    .ok (some (.permitWith "anonymous public action" "platform.anonymous_public"))
  else
    .ok (some (.denyWith "anonymous principal not allowed" "platform.anonymous_default_deny"))

/-- `_self_actions`. -/
def selfActions : PolicyFn := fun access =>
  if access.ctx.isAnonymous then .ok none
  else if ["identity.self.read", "identity.self.logout"].contains access.action then
    .ok (some (.permitWith "self action" "identity.self"))
  else if access.action = "identity.user.read" ∧
      access.resource "user_id" = some (.text access.ctx.principalId) then
    .ok (some (.permitWith "reading self" "identity.self.read"))
  else .ok none

/-- The resource names, under a key, another value than the context has. -/
def targetsAnother (target : Option Attribute) (own : Option String) : Bool :=
  carries target && carries (own.map .text) && target != own.map .text

/-- What the two policies of isolation share. -/
def isolation (target : Access → Option Attribute) (own : Access → Option String)
    (reason policyId : String) : PolicyFn := fun access =>
  if access.ctx.isAnonymous then .ok none
  else if targetsAnother (target access) (own access) ∧ !access.ctx.hasAnyRole ["super_admin"] then
    .ok (some (.denyWith reason policyId))
  else .ok none

/-- `_tenant_isolation`. -/
def tenantIsolation : PolicyFn :=
  isolation (fun access => access.resource "tenant_id") (fun access => access.ctx.tenantId)
    "cross-tenant access denied" "platform.tenant_isolation"

/-- `_country_isolation`. -/
def countryIsolation : PolicyFn :=
  isolation (fun access => access.resource "country") (fun access => access.ctx.country)
    "cross-country access denied" "platform.country_isolation"

/-- What `register_default_policies` registers, in its order. -/
def defaultPolicies : List Policy :=
  [⟨"platform.tenant_isolation", 10, "Deny cross-tenant access unless super_admin",
      tenantIsolation⟩,
   ⟨"platform.country_isolation", 11, "Deny cross-country access unless super_admin",
      countryIsolation⟩,
   ⟨"platform.super_admin", 20, "super_admin can do anything within their scope",
      superAdminAllowsEverything⟩,
   ⟨"platform.anonymous_public", 30,
      "Anonymous principals are limited to whitelisted public actions",
      anonymousCanOnlyAccessPublicActions⟩,
   ⟨"identity.self", 40, "Any authenticated principal may operate on their own record",
      selfActions⟩]

/-! ## The registry -/

/-- The two globals of `policies.py`. -/
structure Registry where
  policies : List Policy := []
  defaultsRegistered : Bool := false

/-- A computation over the registry. -/
abbrev Administration := ExceptT PyExc (StateM Registry)

/-- `list.append` and the stable `list.sort(key=lambda p: p.priority)`. -/
def insertPolicy (policies : List Policy) (policy : Policy) : List Policy :=
  (policies ++ [policy]).insertionSort fun p q => p.priority ≤ q.priority

/-- `register_policy`. -/
def registerPolicy (policy : Policy) : Administration Unit := do
  if (← get).policies.any (·.id == policy.id) then
    throw (.value ("policy " ++ Python.reprString policy.id ++ " already registered"))
  modify fun registry => { registry with policies := insertPolicy registry.policies policy }

/-- `register_default_policies`. -/
def registerDefaultPolicies : Administration Unit := do
  if (← get).defaultsRegistered then return
  defaultPolicies.forM registerPolicy
  modify fun registry => { registry with defaultsRegistered := true }

/-! ## The decision point -/

/-- The loop of `authorize`. -/
def firstDecision (access : Access) : List Policy → Decision
  | [] => .denyWith "no policy granted access (default deny)" "platform.default_deny"
  | policy :: policies =>
      match policy.fn access with
      | .error _ => .denyWith ("policy " ++ policy.id ++ " crashed") policy.id
      | .ok (some decision) => decision
      | .ok none => firstDecision access policies

/-- `resource or {}` and `env or {}`. -/
def accessOf (ctx : ExecutionContext) (action : String) (resource env : Option Attributes) :
    Access :=
  ⟨ctx, action, resource.getD fun _ => none, env.getD fun _ => none⟩

/-- `authorize`. -/
def authorize (ctx : ExecutionContext) (action : String) (resource env : Option Attributes) :
    Administration Decision := do
  registerDefaultPolicies
  let policies := (← get).policies
  return firstDecision (accessOf ctx action resource env) policies

/-! ## Any order of calls -/

/-- What the modules of an application may do with the registry. -/
inductive Call where
  | register (policy : Policy)
  | registerDefaults
  | authorize (ctx : ExecutionContext) (action : String) (resource env : Option Attributes)

def Call.perform : Call → Administration Unit
  | .register policy => registerPolicy policy
  | .registerDefaults => registerDefaultPolicies
  | .authorize ctx action resource env => do let _ ← Authorization.authorize ctx action resource env

/-- The registry after some calls; one that raises does not end the program. -/
def registryAfter (calls : List Call) : Registry :=
  calls.foldl (fun registry call => (call.perform registry).2) {}

/-! ## The registry is sorted -/

/-- The order of evaluation. -/
abbrev Sorted (policies : List Policy) : Prop :=
  policies.Pairwise fun p q => p.priority ≤ q.priority

theorem mem_insertPolicy {policies : List Policy} {policy p : Policy} :
    p ∈ insertPolicy policies policy ↔ p ∈ policies ∨ p = policy := by
  simp [insertPolicy]

theorem sorted_insertPolicy (policies : List Policy) (policy : Policy) :
    Sorted (insertPolicy policies policy) :=
  haveI : Std.Total fun p q : Policy => p.priority ≤ q.priority := ⟨fun _ _ => Int.le_total _ _⟩
  haveI : IsTrans Policy fun p q => p.priority ≤ q.priority := ⟨fun _ _ _ => Int.le_trans⟩
  List.pairwise_insertionSort _ _

theorem mem_foldl_insertPolicy {added policies : List Policy} {p : Policy} :
    p ∈ added.foldl insertPolicy policies ↔ p ∈ policies ∨ p ∈ added := by
  induction added generalizing policies with
  | nil => simp
  | cons policy added ih => rw [List.foldl_cons, ih, mem_insertPolicy, List.mem_cons, or_assoc]

theorem sorted_foldl_insertPolicy {added policies : List Policy} (sorted : Sorted policies) :
    Sorted (added.foldl insertPolicy policies) := by
  induction added generalizing policies with
  | nil => exact sorted
  | cons policy added ih => exact ih (sorted_insertPolicy policies policy)

/-- A computation goes on where its first part left the registry. -/
theorem bind_run {α β : Type} (first : Administration α) (rest : α → Administration β)
    (registry : Registry) :
    (first >>= rest) registry =
      match first registry with
      | (.ok a, after) => rest a after
      | (.error error, after) => (.error error, after) := by
  show (ExceptT.bindCont rest (first registry).1) (first registry).2 = _
  rcases first registry with ⟨_ | a, after⟩ <;> rfl

/-- A policy joins the registry, unless its id is taken. -/
theorem registerPolicy_run (policy : Policy) (registry : Registry) :
    (registerPolicy policy) registry =
      if registry.policies.any (·.id == policy.id) then
        (.error (.value ("policy " ++ Python.reprString policy.id ++ " already registered")),
          registry)
      else
        (.ok (), { registry with policies := insertPolicy registry.policies policy }) := by
  by_cases taken : registry.policies.any (·.id == policy.id)
  · rw [if_pos taken]
    show (ite _ _ _ : Administration Unit) registry = _
    rw [if_pos taken]
    rfl
  · rw [if_neg taken]
    show (ite _ _ _ : Administration Unit) registry = _
    rw [if_neg taken]
    rfl

/-- Policies whose ids are free join the registry one after another. -/
theorem forM_registerPolicy {added : List Policy} (distinct : (added.map (·.id)).Nodup)
    {registry : Registry}
    (free : ∀ policy ∈ added, ∀ p ∈ registry.policies, p.id ≠ policy.id) :
    (added.forM registerPolicy) registry =
      (.ok (), { registry with policies := added.foldl insertPolicy registry.policies }) := by
  induction added generalizing registry with
  | nil => rfl
  | cons policy added ih =>
      have untaken : ¬ registry.policies.any (·.id == policy.id) := by
        simpa using free policy List.mem_cons_self
      obtain ⟨first, distinct⟩ := List.nodup_cons.mp distinct
      have joined := registerPolicy_run policy registry
      rw [if_neg untaken] at joined
      have rest : ∀ later ∈ added, ∀ p ∈ insertPolicy registry.policies policy, p.id ≠ later.id := by
        intro later member p listed
        rcases mem_insertPolicy.mp listed with old | rfl
        · exact free later (List.mem_cons_of_mem _ member) p old
        · exact fun same => first (List.mem_map.mpr ⟨later, member, same.symm⟩)
      have continued := @ih distinct
        { registry with policies := insertPolicy registry.policies policy } rest
      show (registerPolicy policy >>= fun _ => added.forM registerPolicy) registry = _
      rw [bind_run, joined]
      exact continued

/-! ## The default policies are there when a decision is taken -/

theorem defaultPolicies_distinct : (defaultPolicies.map (·.id)).Nodup := by decide

/-- The registry holds the default policies, once they are registered, and others whose
priorities are above a limit. -/
structure Above (limit : Int) (registry : Registry) : Prop where
  sorted : Sorted registry.policies
  members : ∀ p ∈ registry.policies, p ∈ defaultPolicies ∨
    p.id ∉ defaultPolicies.map (·.id) ∧ limit < p.priority
  defaults : registry.defaultsRegistered = true → ∀ p ∈ defaultPolicies, p ∈ registry.policies
  pending : registry.defaultsRegistered = false →
    ∀ p ∈ registry.policies, p.id ∉ defaultPolicies.map (·.id)

theorem Above.start (limit : Int) : Above limit {} :=
  ⟨.nil, by simp, by simp, by simp⟩

variable {limit : Int} {registry : Registry}

theorem Above.register (above : Above limit registry) {policy : Policy}
    (own : policy.id ∉ defaultPolicies.map (·.id)) (later : limit < policy.priority) :
    Above limit ((registerPolicy policy) registry).2 := by
  rw [registerPolicy_run]
  split
  · exact above
  · refine ⟨sorted_insertPolicy _ _, fun p listed => ?_, fun registered p listed => ?_,
      fun missing p listed => ?_⟩
    · rcases mem_insertPolicy.mp listed with old | rfl
      · exact above.members p old
      · exact .inr ⟨own, later⟩
    · exact mem_insertPolicy.mpr (.inl (above.defaults registered p listed))
    · rcases mem_insertPolicy.mp listed with old | rfl
      · exact above.pending missing p old
      · exact own

/-- The lazy registration succeeds, and from then on changes nothing. -/
theorem Above.registerDefaults (above : Above limit registry) :
    ∃ after, registerDefaultPolicies registry = (.ok (), after) ∧ Above limit after ∧
      after.defaultsRegistered = true := by
  cases registered : registry.defaultsRegistered with
  | true =>
      refine ⟨registry, ?_, above, registered⟩
      show (ite _ _ _ : Administration Unit) registry = _
      rw [if_pos registered]
      rfl
  | false =>
      have free : ∀ policy ∈ defaultPolicies, ∀ p ∈ registry.policies, p.id ≠ policy.id :=
        fun policy member p listed same =>
          above.pending registered p listed (List.mem_map.mpr ⟨policy, member, same.symm⟩)
      refine ⟨{ policies := defaultPolicies.foldl insertPolicy registry.policies
                defaultsRegistered := true }, ?_, ⟨?_, ?_, ?_, nofun⟩, rfl⟩
      · show (ite _ _ _ : Administration Unit) registry = _
        rw [if_neg (by simp [registered])]
        show (defaultPolicies.forM registerPolicy >>= fun _ => _) registry = _
        rw [bind_run, forM_registerPolicy defaultPolicies_distinct free]
        rfl
      · exact sorted_foldl_insertPolicy above.sorted
      · intro p listed
        rcases mem_foldl_insertPolicy.mp listed with old | standard
        · exact above.members p old
        · exact .inl standard
      · exact fun _ p standard => mem_foldl_insertPolicy.mpr (.inr standard)

/-- A decision is the first in a registry that holds the default policies. -/
theorem Above.authorize (above : Above limit registry) (ctx : ExecutionContext) (action : String)
    (resource env : Option Attributes) :
    ∃ after, Authorization.authorize ctx action resource env registry =
        (.ok (firstDecision (accessOf ctx action resource env) after.policies), after) ∧
      Above limit after ∧ after.defaultsRegistered = true := by
  obtain ⟨after, ran, above, registered⟩ := above.registerDefaults
  refine ⟨after, ?_, above, registered⟩
  show (registerDefaultPolicies >>= fun _ => _) registry = _
  rw [bind_run, ran]
  rfl

/-- The calls register policies of their own, with priorities above a limit. -/
def RegistersAbove (limit : Int) (calls : List Call) : Prop :=
  ∀ policy, .register policy ∈ calls →
    policy.id ∉ defaultPolicies.map (·.id) ∧ limit < policy.priority

theorem Above.after {calls : List Call} (own : RegistersAbove limit calls) :
    Above limit (registryAfter calls) := by
  unfold registryAfter
  suffices ∀ registry, Above limit registry →
      Above limit (calls.foldl (fun registry call => (call.perform registry).2) registry) from
    this {} (.start limit)
  induction calls with
  | nil => exact fun _ above => above
  | cons call calls ih =>
      intro registry above
      refine ih (fun policy listed => own policy (List.mem_cons_of_mem _ listed)) _ ?_
      cases call with
      | register policy =>
          obtain ⟨free, later⟩ := own policy List.mem_cons_self
          exact above.register free later
      | registerDefaults =>
          obtain ⟨after, ran, above, _⟩ := above.registerDefaults
          show Above limit (registerDefaultPolicies registry).2
          rw [ran]
          exact above
      | authorize ctx action resource env =>
          obtain ⟨after, ran, above, _⟩ := above.authorize ctx action resource env
          show Above limit ((Authorization.authorize ctx action resource env >>= fun _ =>
            pure ()) registry).2
          rw [bind_run, ran]
          exact above

/-! ## A policy that denies, before any that could permit -/

/-- The policy permits. -/
def Permits (policy : Policy) (access : Access) : Prop :=
  ∃ decision, policy.fn access = .ok (some decision) ∧ decision.effect = .permit

/-- In a sorted registry, where a policy answers and none up to its priority permits, the
decision is a denial. -/
theorem firstDecision_denies {access : Access} {policies : List Policy} (sorted : Sorted policies)
    {policy : Policy} (listed : policy ∈ policies) (answers : policy.fn access ≠ .ok none)
    (before : ∀ p ∈ policies, p.priority ≤ policy.priority → ¬ Permits p access) :
    (firstDecision access policies).effect = .deny := by
  induction policies with
  | nil => cases listed
  | cons first policies ih =>
      obtain ⟨least, sorted⟩ := List.pairwise_cons.mp sorted
      have early : first.priority ≤ policy.priority := by
        rcases List.mem_cons.mp listed with rfl | later
        · exact le_rfl
        · exact least policy later
      unfold firstDecision
      split
      · rfl
      · rename_i decided answered
        cases effect : decided.effect with
        | deny => rfl
        | permit => exact absurd ⟨decided, answered, effect⟩ (before first List.mem_cons_self early)
      · rename_i abstained
        have later : policy ∈ policies := by
          rcases List.mem_cons.mp listed with rfl | later
          · exact absurd abstained answers
          · exact later
        exact ih sorted later fun p member => before p (List.mem_cons_of_mem _ member)

/-- The same for a default policy, where only default policies can come before it. -/
theorem Above.denies (above : Above limit registry)
    (registered : registry.defaultsRegistered = true) {policy : Policy} (standard : policy ∈ defaultPolicies) (early : policy.priority ≤ limit)
    {access : Access} (answers : policy.fn access ≠ .ok none)
    (before : ∀ p ∈ defaultPolicies, p.priority ≤ policy.priority → ¬ Permits p access) :
    (firstDecision access registry.policies).effect = .deny := by
  refine firstDecision_denies above.sorted (above.defaults registered policy standard) answers ?_
  intro p listed earlier
  rcases above.members p listed with default | ⟨_, later⟩
  · exact before p default earlier
  · exact absurd (earlier.trans early) (not_le.mpr later)

/-! ## What the default policies answer -/

/-- A policy of isolation never permits. -/
theorem isolation_never_permits {target : Access → Option Attribute}
    {own : Access → Option String} {reason policyId id description : String} {priority : Int}
    (access : Access) :
    ¬ Permits ⟨id, priority, description, isolation target own reason policyId⟩ access := by
  rintro ⟨decision, answered, effect⟩
  simp only [isolation] at answered
  split at answered
  · cases answered
  · split at answered
    · cases answered
      cases effect
    · cases answered

theorem isolation_answers {target : Access → Option Attribute} {own : Access → Option String}
    {reason policyId : String} {access : Access} (authenticated : access.ctx.isAnonymous = false)
    (ordinary : access.ctx.hasAnyRole ["super_admin"] = false)
    (another : targetsAnother (target access) (own access) = true) :
    isolation target own reason policyId access ≠ .ok none := by
  simp [isolation, authenticated, ordinary, another]

/-- No default policy up to priority 11 ever permits. -/
theorem isolating_never_permits {p : Policy} (standard : p ∈ defaultPolicies)
    (early : p.priority ≤ 11) (access : Access) : ¬ Permits p access := by
  simp only [defaultPolicies, List.mem_cons, List.not_mem_nil, or_false] at standard
  rcases standard with rfl | rfl | rfl | rfl | rfl
  · exact isolation_never_permits access
  · exact isolation_never_permits access
  all_goals exact absurd early (by decide)

/-- Up to priority 30, an anonymous principal without roles is permitted public actions
only. -/
theorem anonymous_permits_public {p : Policy} (standard : p ∈ defaultPolicies)
    (early : p.priority ≤ 30) {access : Access} (anonymous : access.ctx.isAnonymous = true)
    (roleless : access.ctx.roles = []) (permits : Permits p access) :
    isPublicAction access.action = true := by
  simp only [defaultPolicies, List.mem_cons, List.not_mem_nil, or_false] at standard
  rcases standard with rfl | rfl | rfl | rfl | rfl
  · exact absurd permits (isolation_never_permits access)
  · exact absurd permits (isolation_never_permits access)
  · obtain ⟨decision, answered, effect⟩ := permits
    simp [superAdminAllowsEverything, ExecutionContext.hasAnyRole, roleless] at answered
  · obtain ⟨decision, answered, effect⟩ := permits
    by_contra inner
    simp only [anonymousCanOnlyAccessPublicActions, anonymous, Bool.not_true, Bool.false_eq_true,
      if_false, inner] at answered
    cases answered
    cases effect
  · exact absurd early (by decide)

/-- **Policies compose safely.** Whatever policies are registered, in any order of the calls,
with ids of their own: with priorities above 11, a resource of another tenant or of another
country is denied to everyone but a super administrator; with priorities above 30, an
anonymous principal without roles is permitted public actions only. -/
theorem policies_compose_safely (calls : List Call) (own : RegistersAbove 11 calls) :
    (∀ (ctx : ExecutionContext) (action : String) (resource env : Option Attributes),
      ctx.isAnonymous = false → ctx.hasAnyRole ["super_admin"] = false →
      (targetsAnother ((resource.getD fun _ => none) "tenant_id") ctx.tenantId = true ∨
        targetsAnother ((resource.getD fun _ => none) "country") ctx.country = true) →
      ∃ decision, (authorize ctx action resource env (registryAfter calls)).1 = .ok decision ∧
        decision.effect = .deny) ∧
    (RegistersAbove 30 calls →
      ∀ (ctx : ExecutionContext) (action : String) (resource env : Option Attributes),
      ctx.isAnonymous = true → ctx.roles = [] →
      ∃ decision, (authorize ctx action resource env (registryAfter calls)).1 = .ok decision ∧
        (decision.effect = .permit → isPublicAction action = true)) := by
  constructor
  · intro ctx action resource env authenticated ordinary another
    obtain ⟨after, ran, above, registered⟩ :=
      (Above.after own).authorize ctx action resource env
    refine ⟨_, by rw [ran], ?_⟩
    rcases another with tenant | country
    · have answers : tenantIsolation (accessOf ctx action resource env) ≠ .ok none :=
        @isolation_answers (fun access => access.resource "tenant_id")
          (fun access => access.ctx.tenantId) _ _ _ authenticated ordinary tenant
      exact above.denies registered List.mem_cons_self (by decide) answers
        fun p standard earlier => isolating_never_permits standard (earlier.trans (by decide)) _
    · have answers : countryIsolation (accessOf ctx action resource env) ≠ .ok none :=
        @isolation_answers (fun access => access.resource "country")
          (fun access => access.ctx.country) _ _ _ authenticated ordinary country
      exact above.denies registered (.tail _ (.head _)) (by decide) answers
        fun p standard earlier => isolating_never_permits standard (earlier.trans (by decide)) _
  · intro later ctx action resource env anonymous roleless
    obtain ⟨after, ran, above, registered⟩ :=
      (Above.after later).authorize ctx action resource env
    refine ⟨_, by rw [ran], fun permitted => ?_⟩
    by_contra inner
    have answers : anonymousCanOnlyAccessPublicActions (accessOf ctx action resource env) ≠
        .ok none := by
      have same : (accessOf ctx action resource env).ctx = ctx := rfl
      simp only [anonymousCanOnlyAccessPublicActions, same, anonymous, Bool.not_true,
        Bool.false_eq_true, if_false]
      split <;> simp
    have denied : (firstDecision (accessOf ctx action resource env) after.policies).effect = .deny :=
      above.denies registered
        (.tail _ (.tail _ (.tail _ (.head _)))) (by decide) answers
        fun p standard earlier permits =>
          inner (anonymous_permits_public standard earlier anonymous roleless permits)
    exact absurd (denied.symm.trans permitted) (by decide)

/-- A policy that permits everything, and one that always raises, registered around a
decision. -/
def sampleCalls : List Call :=
  [.register ⟨"sample.permissive", 31, "", fun _ => .ok (some (.permitWith "" ""))⟩,
   .authorize { principalId := "anonymous" } "identity.login" none none,
   .register ⟨"sample.crashing", 35, "", fun _ => .error .overflow⟩]

theorem policies_compose_safely_sample :
    RegistersAbove 30 sampleCalls ∧
    (∃ decision, (authorize { principalId := "p-1", tenantId := some "t-1" } "registry.parcel.read"
        (some fun key => if key = "tenant_id" then some (.text "t-2") else none) none
        (registryAfter sampleCalls)).1 = .ok decision ∧ decision.effect = .deny) ∧
    ∃ decision, (authorize { principalId := "anonymous" } "registry.parcel.read" none none
        (registryAfter sampleCalls)).1 = .ok decision ∧
      (decision.effect = .permit → isPublicAction "registry.parcel.read" = true) := by
  have above : ∀ limit ≤ (30 : Int), RegistersAbove limit sampleCalls := by
    intro limit le policy listed
    simp only [sampleCalls, List.mem_cons, Call.register.injEq, reduceCtorEq, List.not_mem_nil,
      or_false, false_or] at listed
    rcases listed with rfl | rfl
    · exact ⟨by decide, le.trans_lt (by decide)⟩
    · exact ⟨by decide, le.trans_lt (by decide)⟩
  have composed := policies_compose_safely sampleCalls (above 11 (by decide))
  exact ⟨above 30 le_rfl, composed.1 _ _ _ _ (by decide) (by decide) (.inl (by decide)),
    composed.2 (above 30 le_rfl) _ _ _ _ (by decide) rfl⟩

end LandVault.Kernel.Authorization
