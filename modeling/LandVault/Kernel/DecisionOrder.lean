import LandVault.Kernel.Authorization

/-!
# The order of the policies

`register_policy` sorts the whole registry again after each addition. The sort is stable,
so the registry is at any time the list of the registered policies by priority, with equal
priorities in the order of registration (`InOrder`), and a decision is that of the first
policy in this order that does not abstain (`Settles`).

The default policies are registered by the first call that wants them, under ids that
another module may have taken by then; such a call raises.
-/

set_option autoImplicit false

namespace LandVault.Kernel.Authorization

open LandVault.Kernel

/-! ## What has been registered -/

/-- The policies that were registered, in the order of their registration. -/
structure Journal where
  policies : List Policy := []
  defaultsRegistered : Bool := false

/-- Policies are registered one after another, up to the first whose id is taken. -/
def enrol (registered : List Policy) : List Policy → List Policy
  | [] => registered
  | policy :: policies =>
      if registered.any (·.id == policy.id) then registered
      else enrol (registered ++ [policy]) policies

/-- What a call adds. The default policies are registered once, by the first call that finds
their ids free. -/
def Journal.after (journal : Journal) : Call → Journal
  | .register policy => { journal with policies := enrol journal.policies [policy] }
  | .registerDefaults | .authorize _ _ _ _ =>
      if journal.defaultsRegistered then journal
      else
        { policies := enrol journal.policies defaultPolicies
          defaultsRegistered :=
            defaultPolicies.all fun policy => !journal.policies.any (·.id == policy.id) }

def journalOf (calls : List Call) : Journal := calls.foldl Journal.after {}

/-- The registered policies by priority, and equal priorities in the order of registration. -/
structure InOrder (registered policies : List Policy) : Prop where
  distinct : (policies.map (·.id)).Nodup
  sorted : Sorted policies
  stable : ∀ priority : Int, policies.filter (·.priority = priority) =
    registered.filter (·.priority = priority)

/-- The first policy that does not abstain. -/
def DecidedBy (access : Access) (policies : List Policy) (first : Policy) : Prop :=
  ∃ before rest, policies = before ++ first :: rest ∧ (∀ p ∈ before, p.fn access = .ok none) ∧
    first.fn access ≠ .ok none

/-- What the policies say together: what the first one says that does not abstain. -/
inductive Settles (access : Access) (policies : List Policy) : Decision → Prop where
  | decides {first : Policy} {decision : Decision} (decided : DecidedBy access policies first)
      (answer : first.fn access = .ok (some decision)) : Settles access policies decision
  | raises {first : Policy} {e : PyExc} (decided : DecidedBy access policies first)
      (answer : first.fn access = .error e) :
      Settles access policies (.denyWith ("policy " ++ first.id ++ " crashed") first.id)
  | abstains (all : ∀ p ∈ policies, p.fn access = .ok none) :
      Settles access policies
        (.denyWith "no policy granted access (default deny)" "platform.default_deny")

/-- One policy comes before another. -/
def Precedes (policies : List Policy) (first later : Policy) : Prop :=
  ∃ before rest, policies = before ++ first :: rest ∧ later ∈ rest

/-- The default policies are registered, or nobody has taken one of their ids. -/
def DefaultsFree (journal : Journal) : Prop :=
  journal.defaultsRegistered = true ∨
    ∀ policy ∈ journal.policies, policy.id ∉ defaultPolicies.map (·.id)

/-! ## Insertion -/

/-- A new policy comes after those of its priority, and before the higher ones. -/
theorem exists_insertPolicy {policies : List Policy} (sorted : Sorted policies) (policy : Policy) :
    ∃ before after, policies = before ++ after ∧
      insertPolicy policies policy = before ++ policy :: after ∧
      (∀ p ∈ before, p.priority ≤ policy.priority) ∧ ∀ p ∈ after, policy.priority < p.priority := by
  induction policies with
  | nil => exact ⟨[], [], rfl, rfl, by simp, by simp⟩
  | cons first policies ih =>
      obtain ⟨least, sorted⟩ := List.pairwise_cons.mp sorted
      obtain ⟨before, after, rfl, inserted, below, above⟩ := ih sorted
      have recursive : insertPolicy (first :: (before ++ after)) policy =
          (before ++ policy :: after).orderedInsert (fun p q => p.priority ≤ q.priority) first :=
        congrArg (List.orderedInsert _ first) inserted
      cases before with
      | cons second before =>
          refine ⟨first :: second :: before, after, rfl, ?_, ?_, above⟩
          · exact recursive.trans (if_pos (least second (by simp)))
          · intro p member
            rcases List.mem_cons.mp member with rfl | member
            · exact (least second (by simp)).trans (below second (by simp))
            · exact below p member
      | nil =>
          simp only [List.nil_append] at recursive least
          by_cases early : first.priority ≤ policy.priority
          · refine ⟨[first], after, rfl, ?_, by simpa using early, above⟩
            exact recursive.trans (if_pos early)
          · -- `first` goes after the new policy, and before all that it was before
            have kept : after.orderedInsert (fun p q => p.priority ≤ q.priority) first =
                first :: after := by
              cases after with
              | nil => rfl
              | cons next after => exact if_pos (least next (by simp))
            refine ⟨[], first :: after, rfl, ?_, by simp, ?_⟩
            · exact recursive.trans ((if_neg early).trans (congrArg (List.cons policy) kept))
            · intro p member
              rcases List.mem_cons.mp member with rfl | member
              · exact not_le.mp early
              · exact above p member

/-! ## Registration keeps the order -/

section Keeps

variable {registered policies : List Policy} {registry : Registry} {journal : Journal}

theorem InOrder.mem_iff (order : InOrder registered policies) {p : Policy} :
    p ∈ policies ↔ p ∈ registered := by
  have same : p ∈ policies.filter (·.priority = p.priority) ↔
      p ∈ registered.filter (·.priority = p.priority) := by
    rw [order.stable p.priority]
  simpa using same

theorem InOrder.any_eq (order : InOrder registered policies) (id : String) :
    policies.any (·.id == id) = registered.any (·.id == id) := by
  rw [Bool.eq_iff_iff]
  simp only [List.any_eq_true, order.mem_iff]

/-- A policy with a new id takes its place. -/
theorem InOrder.insert (order : InOrder registered policies) {policy : Policy}
    (free : ¬ policies.any (·.id == policy.id) = true) :
    InOrder (registered ++ [policy]) (insertPolicy policies policy) := by
  obtain ⟨before, after, rfl, inserted, below, above⟩ := exists_insertPolicy order.sorted policy
  refine ⟨?_, sorted_insertPolicy _ _, fun priority => ?_⟩
  · have moved : (before ++ policy :: after).Perm (policy :: (before ++ after)) :=
      List.perm_middle
    rw [inserted, (moved.map (·.id)).nodup_iff, List.map_cons, List.nodup_cons]
    refine ⟨fun taken => free ?_, order.distinct⟩
    obtain ⟨p, listed, same⟩ := List.mem_map.mp taken
    exact List.any_eq_true.mpr ⟨p, listed, by simpa using same⟩
  · rw [inserted, List.filter_append, List.filter_append, ← order.stable priority,
      List.filter_append, List.append_assoc]
    congr 1
    by_cases same : policy.priority = priority
    · have none : after.filter (·.priority = priority) = [] := by
        refine List.filter_eq_nil_iff.mpr fun p member equal => ?_
        have later := above p member
        simp only [decide_eq_true_eq] at equal
        omega
      rw [List.filter_cons_of_pos (by simpa using same), none]
      simp [same]
    · rw [List.filter_cons_of_neg (by simpa using same)]
      simp [same]

/-- A registration of several policies starts with the first, and ends with it if its id is
taken. -/
theorem forM_registerPolicy_cons (policy : Policy) (added : List Policy) :
    ((policy :: added).forM registerPolicy) registry =
      if registry.policies.any (·.id == policy.id) then
        (.error (.value ("policy " ++ Python.reprString policy.id ++ " already registered")),
          registry)
      else
        (added.forM registerPolicy)
          { registry with policies := insertPolicy registry.policies policy } := by
  show (registerPolicy policy >>= fun _ => added.forM registerPolicy) registry = _
  rw [bind_run, registerPolicy_run]
  by_cases taken : registry.policies.any (·.id == policy.id) = true
  · rw [if_pos taken, if_pos taken]
  · rw [if_neg taken, if_neg taken]

/-- Policies that are registered one after another. -/
theorem InOrder.forM (order : InOrder registered registry.policies) (added : List Policy) :
    InOrder (enrol registered added) ((added.forM registerPolicy) registry).2.policies ∧
      ((added.forM registerPolicy) registry).2.defaultsRegistered = registry.defaultsRegistered := by
  induction added generalizing registered registry with
  | nil => exact ⟨order, rfl⟩
  | cons policy added ih =>
      rw [forM_registerPolicy_cons, enrol, ← order.any_eq]
      by_cases taken : registry.policies.any (·.id == policy.id) = true
      · rw [if_pos taken, if_pos taken]
        exact ⟨order, rfl⟩
      · rw [if_neg taken, if_neg taken]
        exact ih (order.insert taken)

/-- A repeated id ends a registration. -/
theorem forM_registerPolicy_taken {added : List Policy} {policy : Policy} (member : policy ∈ added)
    (taken : registry.policies.any (·.id == policy.id) = true) :
    ∃ message, ((added.forM registerPolicy) registry).1 = .error (.value message) := by
  induction added generalizing registry with
  | nil => cases member
  | cons first added ih =>
      rw [forM_registerPolicy_cons]
      by_cases first_taken : registry.policies.any (·.id == first.id) = true
      · rw [if_pos first_taken]
        exact ⟨_, rfl⟩
      · rw [if_neg first_taken]
        rcases List.mem_cons.mp member with rfl | member
        · exact absurd taken first_taken
        · refine ih member ?_
          obtain ⟨p, listed, same⟩ := List.any_eq_true.mp taken
          exact List.any_eq_true.mpr ⟨p, mem_insertPolicy.mpr (.inl listed), same⟩

/-- The registry is that of the journal. -/
structure Journal.Orders (journal : Journal) (registry : Registry) : Prop
    extends InOrder journal.policies registry.policies where
  defaults : registry.defaultsRegistered = journal.defaultsRegistered

/-- The lazy registration, where nobody has taken the ids of the default policies, and where
somebody has. -/
theorem Journal.Orders.registerDefaults (orders : journal.Orders registry) :
    (journal.after .registerDefaults).Orders (registerDefaultPolicies registry).2 ∧
      (DefaultsFree journal → (registerDefaultPolicies registry).1 = .ok () ∧
        (registerDefaultPolicies registry).2.defaultsRegistered = true) ∧
      (¬ DefaultsFree journal →
        ∃ message, (registerDefaultPolicies registry).1 = .error (.value message)) := by
  cases registered : registry.defaultsRegistered with
  | true =>
      have ran : registerDefaultPolicies registry = (.ok (), registry) := by
        show (ite _ _ _ : Administration Unit) registry = _
        rw [if_pos registered]
        rfl
      have noted : journal.defaultsRegistered = true := orders.defaults.symm.trans registered
      rw [ran]
      refine ⟨?_, fun _ => ⟨rfl, registered⟩, fun taken => absurd (.inl noted) taken⟩
      simpa only [Journal.after, noted, if_true] using orders
  | false =>
      have unnoted : journal.defaultsRegistered = false := orders.defaults.symm.trans registered
      have ran : registerDefaultPolicies registry =
          (defaultPolicies.forM registerPolicy >>= fun _ =>
            modify fun registry => { registry with defaultsRegistered := true }) registry := by
        show (ite _ _ _ : Administration Unit) registry = _
        rw [if_neg (by simp [registered])]
      obtain ⟨order, flag⟩ := orders.toInOrder.forM defaultPolicies
      rw [bind_run] at ran
      have untaken : (defaultPolicies.all fun policy =>
          !journal.policies.any (·.id == policy.id)) = true ↔ DefaultsFree journal := by
        simp only [DefaultsFree, unnoted, Bool.false_eq_true, false_or, List.all_eq_true,
          Bool.not_eq_true', List.any_eq_false, beq_iff_eq, List.mem_map, not_exists, not_and]
        exact ⟨fun free p listed policy member same => free policy member p listed same.symm,
          fun free policy member p listed same => free p listed policy member same.symm⟩
      by_cases free : DefaultsFree journal
      · have apart : ∀ policy ∈ defaultPolicies, ∀ p ∈ registry.policies, p.id ≠ policy.id := by
          intro policy member p listed same
          have own := (free.resolve_left (by simp [unnoted])) p (orders.mem_iff.mp listed)
          exact own (List.mem_map.mpr ⟨policy, member, same.symm⟩)
        have joined := forM_registerPolicy defaultPolicies_distinct apart
        rw [joined] at ran order
        replace ran : registerDefaultPolicies registry =
            (.ok (), { policies := defaultPolicies.foldl insertPolicy registry.policies
                       defaultsRegistered := true }) := ran
        rw [ran]
        refine ⟨⟨?_, ?_⟩, fun _ => ⟨rfl, rfl⟩, fun taken => absurd free taken⟩
        · simpa only [Journal.after, unnoted, Bool.false_eq_true, if_false] using order
        · simp only [Journal.after, unnoted, Bool.false_eq_true, if_false, untaken.mpr free]
      · obtain ⟨policy, member, taken⟩ : ∃ policy ∈ defaultPolicies,
            registry.policies.any (·.id == policy.id) = true := by
          by_contra none
          refine free (untaken.mp (List.all_eq_true.mpr fun policy member => ?_))
          have other : ¬ registry.policies.any (·.id == policy.id) = true :=
            fun taken => none ⟨policy, member, taken⟩
          rw [orders.any_eq] at other
          simpa using other
        obtain ⟨message, raised⟩ := forM_registerPolicy_taken member taken
        have stopped : registerDefaultPolicies registry =
            (.error (.value message), ((defaultPolicies.forM registerPolicy) registry).2) := by
          rw [ran]
          generalize (defaultPolicies.forM registerPolicy) registry = run at raised
          obtain ⟨result, after⟩ := run
          cases raised
          rfl
        rw [stopped]
        refine ⟨⟨?_, ?_⟩, fun clear => absurd clear free, fun _ => ⟨message, rfl⟩⟩
        · simpa only [Journal.after, unnoted, Bool.false_eq_true, if_false] using order
        · have untouched : (defaultPolicies.all fun policy =>
              !journal.policies.any (·.id == policy.id)) = false :=
            Bool.eq_false_iff.mpr fun clear => free (untaken.mp clear)
          simp only [Journal.after, unnoted, Bool.false_eq_true, if_false, untouched]
          exact flag.trans registered

theorem Journal.Orders.register (orders : journal.Orders registry) (policy : Policy) :
    (journal.after (.register policy)).Orders (registerPolicy policy registry).2 := by
  rw [registerPolicy_run]
  by_cases taken : registry.policies.any (·.id == policy.id) = true
  · have known : journal.policies.any (·.id == policy.id) = true := orders.any_eq _ ▸ taken
    rw [if_pos taken]
    simpa only [Journal.after, enrol, known, if_true] using orders
  · have unknown : journal.policies.any (·.id == policy.id) = false := by
      rw [← orders.any_eq]
      simpa using taken
    rw [if_neg taken]
    refine ⟨?_, orders.defaults⟩
    simpa only [Journal.after, enrol, unknown, Bool.false_eq_true, if_false] using
      orders.toInOrder.insert taken

/-- The decision is taken over the registry with the default policies. -/
theorem authorize_run (ctx : ExecutionContext) (action : String)
    (resource env : Option Attributes) :
    authorize ctx action resource env registry =
      match registerDefaultPolicies registry with
      | (.ok _, after) =>
          (.ok (firstDecision (accessOf ctx action resource env) after.policies), after)
      | (.error error, after) => (.error error, after) := by
  show (registerDefaultPolicies >>= fun _ => _) registry = _
  rw [bind_run]
  rcases registerDefaultPolicies registry with ⟨_ | _, after⟩ <;> rfl

/-- Once the default policies are there, a decision changes nothing. -/
theorem authorize_registered (registered : registry.defaultsRegistered = true)
    (ctx : ExecutionContext) (action : String) (resource env : Option Attributes) :
    authorize ctx action resource env registry =
      (.ok (firstDecision (accessOf ctx action resource env) registry.policies), registry) := by
  have ran : registerDefaultPolicies registry = (.ok (), registry) := by
    show (ite _ _ _ : Administration Unit) registry = _
    rw [if_pos registered]
    rfl
  rw [authorize_run, ran]

/-- One call. -/
theorem Journal.Orders.step (orders : journal.Orders registry) (call : Call) :
    (journal.after call).Orders (call.perform registry).2 := by
  cases call with
  | register policy => exact orders.register policy
  | registerDefaults => exact orders.registerDefaults.1
  | authorize ctx action resource env =>
      have same : ((Call.authorize ctx action resource env).perform registry).2 =
          (registerDefaultPolicies registry).2 := by
        show ((authorize ctx action resource env >>= fun _ => pure ()) registry).2 = _
        rw [bind_run, authorize_run]
        rcases registerDefaultPolicies registry with ⟨_ | _, after⟩ <;> rfl
      rw [same]
      exact orders.registerDefaults.1

/-- Any calls. -/
theorem orders_after (calls : List Call) : (journalOf calls).Orders (registryAfter calls) := by
  unfold journalOf registryAfter
  suffices ∀ (journal : Journal) (registry : Registry), journal.Orders registry →
      (calls.foldl Journal.after journal).Orders
        (calls.foldl (fun registry call => (call.perform registry).2) registry) from
    this {} {} ⟨⟨.nil, .nil, fun _ => rfl⟩, rfl⟩
  induction calls with
  | nil => exact fun _ _ orders => orders
  | cons call calls ih => exact fun _ _ orders => ih _ _ (orders.step call)

end Keeps

/-! ## Decisions -/

section Decisions

variable {access : Access} {policies : List Policy}

/-- The loop answers what the policies say together. -/
theorem settles_firstDecision (access : Access) (policies : List Policy) :
    Settles access policies (firstDecision access policies) := by
  induction policies with
  | nil => exact .abstains (by simp)
  | cons policy policies ih =>
      have decided : policy.fn access ≠ .ok none → DecidedBy access (policy :: policies) policy :=
        fun answers => ⟨[], policies, rfl, by simp, answers⟩
      unfold firstDecision
      split
      · rename_i e answer
        exact .raises (decided (by simp [answer])) answer
      · rename_i decision answer
        exact .decides (decided (by simp [answer])) answer
      · rename_i abstained
        have later : ∀ {first : Policy}, DecidedBy access policies first →
            DecidedBy access (policy :: policies) first := by
          rintro first ⟨before, rest, rfl, abstain, answers⟩
          refine ⟨policy :: before, rest, rfl, fun p member => ?_, answers⟩
          rcases List.mem_cons.mp member with rfl | member
          · exact abstained
          · exact abstain p member
        generalize firstDecision access policies = taken at ih
        cases ih with
        | decides decided answer => exact .decides (later decided) answer
        | raises decided answer => exact .raises (later decided) answer
        | abstains all =>
            refine .abstains fun p member => ?_
            rcases List.mem_cons.mp member with rfl | member
            · exact abstained
            · exact all p member

/-- The answer of the policy that decides is the decision. -/
theorem firstDecision_append {before rest rest' : List Policy} {first : Policy}
    (answers : first.fn access ≠ .ok none) :
    firstDecision access (before ++ first :: rest) =
      firstDecision access (before ++ first :: rest') := by
  induction before with
  | nil =>
      simp only [List.nil_append, firstDecision]
      split
      · rfl
      · rfl
      · rename_i abstained
        exact absurd abstained answers
  | cons policy before ih =>
      simp only [List.cons_append, firstDecision]
      split
      · rfl
      · rfl
      · exact ih

/-- A policy that comes after the one that decides changes nothing. -/
theorem firstDecision_insertPolicy (sorted : Sorted policies) {policy first : Policy}
    (decided : DecidedBy access policies first)
    (later : Precedes (insertPolicy policies policy) first policy) :
    firstDecision access (insertPolicy policies policy) = firstDecision access policies := by
  obtain ⟨before, after, split, inserted, _, above⟩ := exists_insertPolicy sorted policy
  obtain ⟨abstaining, rest, same, _, answers⟩ := decided
  have early : first.priority ≤ policy.priority := by
    obtain ⟨earlier, remaining, order, member⟩ := later
    have sorted' := sorted_insertPolicy policies policy
    rw [order] at sorted'
    exact (List.pairwise_cons.mp (List.pairwise_append.mp sorted').2.1).1 policy member
  have missing : first ∉ after := fun member => absurd early (not_le.mpr (above first member))
  rcases List.append_eq_append_iff.mp (same.symm.trans split) with
    ⟨gap, rfl, tail⟩ | ⟨gap, rfl, rfl⟩
  · cases gap with
    | nil =>
        simp only [List.nil_append] at tail
        exact absurd (by simp [← tail]) missing
    | cons second gap =>
        obtain ⟨rfl, rfl⟩ := List.cons.inj tail
        rw [inserted, same, List.append_assoc, List.cons_append]
        exact firstDecision_append answers
  · exact absurd (by simp) missing

/-- **The decision point follows its order.** After any calls the registry holds the policies
that were registered by priority, equal priorities in the order of registration, under
distinct ids; a repeated id is rejected and changes nothing. A decision is that of the first
policy in this order that does not abstain, or else a denial, and a policy that is added
behind the one that decides does not change it. Only where another module has taken the id
of a default policy before these are registered, there is no decision: the call raises. -/
theorem decisions_in_order (calls : List Call) :
    InOrder (journalOf calls).policies (registryAfter calls).policies ∧
    (∀ policy : Policy, (∃ p ∈ (registryAfter calls).policies, p.id = policy.id) →
      ∃ message, registerPolicy policy (registryAfter calls) =
        (.error (.value message), registryAfter calls)) ∧
    (DefaultsFree (journalOf calls) →
      ∀ (ctx : ExecutionContext) (action : String) (resource env : Option Attributes),
        ∃ decision after, authorize ctx action resource env (registryAfter calls) =
            (.ok decision, after) ∧
          InOrder (journalOf (calls ++ [.authorize ctx action resource env])).policies
            after.policies ∧
          Settles (accessOf ctx action resource env) after.policies decision ∧
          ∀ policy first : Policy,
            DecidedBy (accessOf ctx action resource env) after.policies first →
            Precedes (registerPolicy policy after).2.policies first policy →
            (authorize ctx action resource env (registerPolicy policy after).2).1 =
              .ok decision) ∧
    (¬ DefaultsFree (journalOf calls) →
      ∀ (ctx : ExecutionContext) (action : String) (resource env : Option Attributes),
        ∃ message, (authorize ctx action resource env (registryAfter calls)).1 =
          .error (.value message)) := by
  have orders := orders_after calls
  refine ⟨orders.toInOrder, fun policy taken => ?_, fun free ctx action resource env => ?_,
    fun taken ctx action resource env => ?_⟩
  · obtain ⟨p, listed, same⟩ := taken
    have known : (registryAfter calls).policies.any (·.id == policy.id) = true :=
      List.any_eq_true.mpr ⟨p, listed, by simpa using same⟩
    exact ⟨_, (registerPolicy_run policy _).trans (if_pos known)⟩
  · obtain ⟨after_orders, answered, _⟩ := orders.registerDefaults
    obtain ⟨answer, registered⟩ := answered free
    have ran := @authorize_run (registryAfter calls) ctx action resource env
    generalize registerDefaultPolicies (registryAfter calls) = run at *
    obtain ⟨result, after⟩ := run
    cases answer
    have journal : journalOf (calls ++ [.authorize ctx action resource env]) =
        (journalOf calls).after .registerDefaults := by
      rw [journalOf, List.foldl_append]
      rfl
    refine ⟨_, after, ran, ?_, settles_firstDecision _ _, fun policy first decided later => ?_⟩
    · rw [journal]
      exact after_orders.toInOrder
    · rw [registerPolicy_run] at later ⊢
      by_cases taken : after.policies.any (·.id == policy.id) = true
      · rw [if_pos taken, authorize_registered registered]
      · rw [if_neg taken] at later ⊢
        have unmoved := firstDecision_insertPolicy after_orders.sorted decided later
        have again := @authorize_registered
          { after with policies := insertPolicy after.policies policy } registered ctx action
            resource env
        exact (congrArg Prod.fst again).trans (congrArg Except.ok unmoved)
  · obtain ⟨_, _, raised⟩ := orders.registerDefaults
    obtain ⟨message, raised⟩ := raised taken
    have ran := @authorize_run (registryAfter calls) ctx action resource env
    generalize registerDefaultPolicies (registryAfter calls) = run at *
    obtain ⟨result, after⟩ := run
    cases raised
    exact ⟨message, congrArg Prod.fst ran⟩

/-- Two policies of one priority, the second of which is registered twice. -/
def tiedCalls : List Call :=
  [.register ⟨"sample.first", 31, "", fun _ => .ok none⟩,
   .register ⟨"sample.second", 31, "", fun _ => .ok (some (.permitWith "" ""))⟩,
   .register ⟨"sample.second", 1, "", fun _ => .error .overflow⟩]

theorem decisions_in_order_tied :
    (∃ message, registerPolicy ⟨"sample.first", 2, "", fun _ => .ok none⟩
      (registryAfter tiedCalls) = (.error (.value message), registryAfter tiedCalls)) ∧
    ∃ decision after, authorize { principalId := "p-1" } "registry.parcel.read" none none
        (registryAfter tiedCalls) = (.ok decision, after) ∧
      Settles (accessOf { principalId := "p-1" } "registry.parcel.read" none none) after.policies
        decision := by
  obtain ⟨_, repeated, decides, _⟩ := decisions_in_order tiedCalls
  have free : DefaultsFree (journalOf tiedCalls) := by
    refine .inr fun policy member => ?_
    have listed : policy.id ∈ (journalOf tiedCalls).policies.map (·.id) :=
      List.mem_map_of_mem member
    revert listed
    generalize policy.id = id
    intro listed
    have ids : (journalOf tiedCalls).policies.map (·.id) = ["sample.first", "sample.second"] := by
      decide
    rw [ids] at listed
    simp only [List.mem_cons, List.not_mem_nil, or_false] at listed
    rcases listed with rfl | rfl
    · decide
    · decide
  obtain ⟨decision, after, ran, _, settles, _⟩ :=
    decides free { principalId := "p-1" } "registry.parcel.read" none none
  refine ⟨repeated _ ?_, decision, after, ran, settles⟩
  have listed : "sample.first" ∈ (registryAfter tiedCalls).policies.map (·.id) := by decide
  exact List.mem_map.mp listed

/-- A module has taken the id of a default policy: the decision point raises, though every
policy that it would ask is there. -/
theorem takenDefault_raises :
    ∃ message, (authorize { principalId := "p-1" } "identity.self.read" none none
      (registryAfter [.register ⟨"identity.self", 1, "", selfActions⟩])).1 =
        .error (.value message) :=
  ⟨_, rfl⟩

end Decisions

end LandVault.Kernel.Authorization
