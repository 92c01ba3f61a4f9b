import LandVault.Kernel.Audit

/-!
# What the verifier verifies

`verify_chain` answers `True` exactly for the lists of entries that are well
formed: no hash occurs twice, every stored hash is recomputed, and the
predecessors of every entry lead to `GENESIS_HASH`. The memo of the walks is
correct after each of them, on paths that fail as on paths that succeed, so the
order of the entries does not matter.

Two well-formed lists that share a hash share the entry and all its
predecessors, as long as SHA-256 does not collide on the texts of their entries.
-/

set_option autoImplicit false

namespace LandVault.Kernel.Audit

open LandVault.Library.HashLinks LandVault.Library.JsonText

/-- Following `prev_hash` from `h` through the stored hashes ends at `GENESIS_HASH`. -/
abbrev DescendsToGenesis (entries : List AuditEntry) (h : String) : Prop :=
  ReachesRoot AuditEntry.hash AuditEntry.prevHash genesisHash entries h

/-- `path` is the sequence of predecessors of `h` down to `GENESIS_HASH`. -/
abbrev Predecessors (entries : List AuditEntry) (h : String) (path : List AuditEntry) : Prop :=
  PredChain AuditEntry.hash AuditEntry.prevHash genesisHash entries h path

/-- The hash `h` is stored with the predecessor `h'`. -/
def Precedes (entries : List AuditEntry) (h h' : String) : Prop :=
  ∃ entry ∈ entries, entry.hash = h ∧ entry.prevHash = h'

/-! ## The index -/

/-- The index holds exactly the entries, by their hash. -/
def Indexes (byHash : ByHash) (entries : List AuditEntry) : Prop :=
  ∀ h entry, byHash.lookup h = some entry ↔ entry ∈ entries ∧ entry.hash = h

theorem Indexes.insert {byHash : ByHash} {entries : List AuditEntry} {entry : AuditEntry}
    (indexes : Indexes byHash entries) (new : entry.hash ∉ byHash) :
    Indexes (byHash.insert entry.hash entry) (entries ++ [entry]) := by
  intro h entry'
  by_cases same : h = entry.hash
  · subst same
    rw [AList.lookup_insert]
    constructor
    · intro found
      cases found
      exact ⟨by simp, rfl⟩
    · rintro ⟨member, stored⟩
      rcases List.mem_append.mp member with old | added
      · exact absurd (AList.lookup_isSome.mp (by simp [(indexes _ _).mpr ⟨old, stored⟩])) new
      · rw [List.mem_singleton.mp added]
  · rw [AList.lookup_insert_ne same, indexes h entry']
    constructor
    · rintro ⟨member, stored⟩
      exact ⟨List.mem_append_left _ member, stored⟩
    · rintro ⟨member, stored⟩
      rcases List.mem_append.mp member with old | added
      · exact ⟨old, stored⟩
      · exact absurd (by rw [← stored, List.mem_singleton.mp added]) same

theorem mem_of_indexes {byHash : ByHash} {entries : List AuditEntry}
    (indexes : Indexes byHash entries) {h : String} :
    h ∈ byHash ↔ h ∈ entries.map AuditEntry.hash := by
  rw [← AList.lookup_isSome, Option.isSome_iff_exists, List.mem_map]
  exact exists_congr fun entry => indexes h entry

/-- The first loop finds an index, or a hash that occurs twice. -/
theorem indexByHash_spec (entries : List AuditEntry) {before : List AuditEntry} {byHash : ByHash}
    (indexes : Indexes byHash before) (unique : (before.map AuditEntry.hash).Nodup) :
    (indexByHash entries byHash = none ∧ ¬ ((before ++ entries).map AuditEntry.hash).Nodup) ∨
      ∃ index, indexByHash entries byHash = some index ∧ Indexes index (before ++ entries) ∧
        ((before ++ entries).map AuditEntry.hash).Nodup := by
  induction entries generalizing before byHash with
  | nil => exact .inr ⟨byHash, rfl, by simpa using indexes, by simpa using unique⟩
  | cons entry entries ih =>
      by_cases seen : entry.hash ∈ byHash
      · refine .inl ⟨by simp [indexByHash, seen], fun nodup => ?_⟩
        have twice := (mem_of_indexes indexes).mp seen
        rw [List.map_append] at nodup
        exact List.disjoint_of_nodup_append nodup twice List.mem_cons_self
      · have fresh : entry.hash ∉ before.map AuditEntry.hash :=
          fun member => seen ((mem_of_indexes indexes).mpr member)
        have unique' : ((before ++ [entry]).map AuditEntry.hash).Nodup := by
          rw [List.map_append]
          exact unique.append (by simp) (by simpa using fresh)
        simpa [indexByHash, seen] using ih (indexes.insert seen) unique'

/-! ## The walks -/

section Walks

variable {entries : List AuditEntry} {byHash : ByHash} {resolved : Resolved}

/-- What the memo says is right. -/
def MemoSound (entries : List AuditEntry) (resolved : Resolved) : Prop :=
  ∀ h result, resolved.lookup h = some result → (result = true ↔ DescendsToGenesis entries h)

/-- The hashes a walk went through before `current`: each descends to genesis
exactly when `current` does, and each has `current` among its predecessors. -/
structure Passed (entries : List AuditEntry) (path : List String) (current : String) : Prop where
  same : ∀ h ∈ path, DescendsToGenesis entries h ↔ DescendsToGenesis entries current
  above : ∀ h ∈ path, Relation.TransGen
    (Link AuditEntry.hash AuditEntry.prevHash genesisHash entries) h current

theorem Passed.step {path : List String} {entry : AuditEntry} (passed : Passed entries path entry.hash)
    (unique : (entries.map AuditEntry.hash).Nodup) (member : entry ∈ entries)
    (above : entry.hash ≠ genesisHash) : Passed entries (entry.hash :: path) entry.prevHash := by
  have down : DescendsToGenesis entries entry.hash ↔ DescendsToGenesis entries entry.prevHash :=
    reachesRoot_node unique member above
  have link : Link AuditEntry.hash AuditEntry.prevHash genesisHash entries entry.hash
      entry.prevHash := ⟨above, entry, member, rfl, rfl⟩
  constructor
  · intro h through
    rcases List.mem_cons.mp through with rfl | earlier
    · exact down
    · exact (passed.same h earlier).trans down
  · intro h through
    rcases List.mem_cons.mp through with rfl | earlier
    · exact .single link
    · exact (passed.above h earlier).tail link

/-- A walk finds out whether `current` descends to genesis, and every hash it
went through shares the answer. -/
theorem walk_spec (indexes : Indexes byHash entries) (unique : (entries.map AuditEntry.hash).Nodup)
    (sound : MemoSound entries resolved) (path : List String) (current : String)
    (passed : Passed entries path current) :
    ((walk byHash resolved path current).1 = true ↔ DescendsToGenesis entries current) ∧
      ∀ h ∈ (walk byHash resolved path current).2,
        ((walk byHash resolved path current).1 = true ↔ DescendsToGenesis entries h) := by
  -- wherever the walk stops, what holds of `current` holds of the hashes before it
  have stop : ∀ {path current} (_ : Passed entries path current) (result : Bool),
      (result = true ↔ DescendsToGenesis entries current) →
      (result = true ↔ DescendsToGenesis entries current) ∧
        ∀ h ∈ path, (result = true ↔ DescendsToGenesis entries h) :=
    fun passed _ found => ⟨found, fun h through => found.trans (passed.same h through).symm⟩
  induction path, current using walk.induct byHash resolved with
  | case1 path =>
      rw [walk, if_pos rfl]
      exact stop passed true ⟨fun _ => .root, fun _ => rfl⟩
  | case2 path current above result memo =>
      rw [walk, if_neg above, memo]
      exact stop passed result (sound current result memo)
  | case3 path current above memo seen =>
      rw [walk, if_neg above, memo]
      simp only [dif_pos seen]
      have cyclic := passed.above current seen
      exact stop passed false ⟨nofun, fun reaches => absurd cyclic (reaches.acyclic unique)⟩
  | case4 path current above memo unseen missing =>
      rw [walk, if_neg above, memo]
      simp only [dif_neg unseen]
      split
      · refine stop passed false ⟨nofun, fun reaches => ?_⟩
        rcases reaches.resolves with root | ⟨entry, member, stored⟩
        · exact absurd root above
        · rw [(indexes current entry).mpr ⟨member, stored⟩] at missing
          cases missing
      · rename_i found
        rw [missing] at found
        cases found
  | case5 path current above memo unseen entry found ih =>
      rw [walk, if_neg above, memo]
      simp only [dif_neg unseen]
      split
      · rename_i missing
        rw [found] at missing
        cases missing
      · rename_i entry' found'
        rw [found] at found'
        cases found'
        obtain ⟨member, rfl⟩ := (indexes current entry).mp found
        obtain ⟨result, through⟩ := ih (passed.step unique member above)
        exact ⟨result.trans (reachesRoot_node unique member above).symm, through⟩

theorem lookup_insertAll {path : List String} {result : Bool} {h : String} :
    (path.foldl (fun resolved node => resolved.insert node result) resolved).lookup h =
      if h ∈ path then some result else resolved.lookup h := by
  induction path generalizing resolved with
  | nil => simp
  | cons node path ih =>
      rw [List.foldl_cons, ih]
      by_cases same : h = node
      · subst same
        simp
      · simp [same, AList.lookup_insert_ne same]

/-- `_reaches_genesis` answers rightly and leaves a sound memo. -/
theorem reachesGenesis_spec (indexes : Indexes byHash entries)
    (unique : (entries.map AuditEntry.hash).Nodup) (sound : MemoSound entries resolved)
    (h : String) :
    ((reachesGenesis h byHash resolved).1 = true ↔ DescendsToGenesis entries h) ∧
      MemoSound entries (reachesGenesis h byHash resolved).2 := by
  obtain ⟨result, through⟩ :=
    walk_spec indexes unique sound [] h ⟨by simp, by simp⟩
  refine ⟨result, fun node answer found => ?_⟩
  simp only [reachesGenesis, lookup_insertAll, List.mem_reverse] at found
  split at found
  · cases found
    exact through node ‹_›
  · exact sound node answer found

theorem allReachGenesis_spec (indexes : Indexes byHash entries)
    (unique : (entries.map AuditEntry.hash).Nodup) (rest : List AuditEntry)
    (sound : MemoSound entries resolved) :
    allReachGenesis byHash rest resolved = true ↔
      ∀ entry ∈ rest, DescendsToGenesis entries entry.hash := by
  induction rest generalizing resolved with
  | nil => simp [allReachGenesis]
  | cons entry rest ih =>
      obtain ⟨answer, sound'⟩ := reachesGenesis_spec indexes unique sound entry.hash
      simp only [allReachGenesis, List.forall_mem_cons]
      split
      · rename_i reached
        rw [ih sound']
        exact (and_iff_right (answer.mp reached)).symm
      · rename_i failed
        exact iff_of_false (by simp) fun all => failed (answer.mpr all.1)

end Walks

/-! ## Well-formed lists -/

/-- What a list of entries has to be. -/
structure WellFormed (sha256 : String → String) (entries : List AuditEntry) : Prop where
  unique : (entries.map AuditEntry.hash).Nodup
  recomputed : ∀ entry ∈ entries, entry.recomputeHash sha256 = entry.hash
  descends : ∀ entry ∈ entries, DescendsToGenesis entries entry.hash

theorem verifyChain_eq_true (sha256 : String → String) (entries : List AuditEntry) :
    verifyChain sha256 entries = true ↔ WellFormed sha256 entries := by
  have start : Indexes ∅ [] := by intro h entry; simp
  rcases indexByHash_spec entries start (by simp) with ⟨twice, repeated⟩ | ⟨index, found, indexes, unique⟩
  · simp only [verifyChain, twice, Bool.false_eq_true, false_iff]
    exact fun wellFormed => repeated (by simpa using wellFormed.unique)
  · simp only [List.nil_append] at indexes unique
    simp only [verifyChain, found, List.all_eq_true, beq_iff_eq]
    split
    · rename_i recomputed
      rw [allReachGenesis_spec indexes unique entries (fun h result found => by simp at found)]
      exact ⟨fun descends => ⟨unique, recomputed, descends⟩, fun wellFormed => wellFormed.descends⟩
    · rename_i different
      exact iff_of_false (by simp) fun wellFormed => different wellFormed.recomputed

/-- Being well formed does not depend on the order. -/
theorem WellFormed.perm {sha256 : String → String} {entries entries' : List AuditEntry}
    (perm : entries.Perm entries') (wellFormed : WellFormed sha256 entries) :
    WellFormed sha256 entries' where
  unique := (perm.map _).nodup_iff.mp wellFormed.unique
  recomputed := fun entry member => wellFormed.recomputed entry (perm.mem_iff.mpr member)
  descends := fun entry member =>
    (wellFormed.descends entry (perm.mem_iff.mpr member)).mono perm.subset

/-! ## The hashed text -/

/-- The members of the hashed object, in the order of their keys. -/
theorem canonicalText_eq (entryId action resourceType : String)
    (resourceId decision : Option String) (principalId : String) (payload : Payload)
    (createdAt prevHash : String) :
    canonicalText entryId action resourceType resourceId decision principalId payload createdAt
        prevHash =
      String.ofList (Json.text (.object
        [("action", .string action), ("created_at", .string createdAt),
         ("decision", optional decision), ("entry_id", .string entryId),
         ("payload", .object payload.members), ("prev_hash", .string prevHash),
         ("principal_id", .string principalId), ("resource_id", optional resourceId),
         ("resource_type", .string resourceType)])) := by
  simp +decide [canonicalText, Json.dict, insertMember]

theorem optional_inj {s t : Option String} (same : optional s = optional t) : s = t := by
  cases s <;> cases t <;> simp_all [optional]

/-- The hashed text determines every hashed field. -/
theorem AuditEntry.eq_of_text {entry entry' : AuditEntry} (text : entry.text = entry'.text) :
    entry' = { entry with hash := entry'.hash } := by
  rcases entry with ⟨_, _, _, resourceId, decision, _, ⟨_, _⟩, _, _, _⟩
  rcases entry' with ⟨_, _, _, resourceId', decision', _, ⟨_, _⟩, _, _, _⟩
  rw [AuditEntry.text, AuditEntry.text, canonicalText_eq, canonicalText_eq] at text
  have members := Json.object.inj (Json.text_inj (String.ofList_injective text))
  simp only [List.cons.injEq, Prod.mk.injEq, true_and, and_true, Json.string.injEq,
    Json.object.injEq] at members
  obtain ⟨rfl, rfl, sameDecision, rfl, rfl, rfl, rfl, sameResourceId, rfl⟩ := members
  cases optional_inj sameDecision
  cases optional_inj sameResourceId
  rfl

/-- The digests of the texts of some entries. -/
def recordedDigest (entries : List AuditEntry) (text : String) : String :=
  ((entries.find? fun entry => entry.text == text).map AuditEntry.hash).getD text

theorem recomputeHash_recordedDigest {entries : List AuditEntry}
    (unique : (entries.map AuditEntry.entryId).Nodup) {entry : AuditEntry}
    (member : entry ∈ entries) : entry.recomputeHash (recordedDigest entries) = entry.hash := by
  change recordedDigest entries entry.text = entry.hash
  cases found : entries.find? fun entry' => entry'.text == entry.text with
  | none =>
      exact absurd (List.find?_eq_none.mp found entry member) (by simp)
  | some entry' =>
      have text : entry'.text = entry.text := by simpa using List.find?_some found
      have same : entry' = entry := List.inj_on_of_nodup_map unique
        (List.mem_of_find?_eq_some found) member (by rw [AuditEntry.eq_of_text text])
      simp [recordedDigest, found, same]

/-- A parcel's creation, and two entries that were both built on it. -/
def createdEntry : AuditEntry where
  entryId := "00000000000040008000000000000001"
  action := "registry.parcel.created"
  resourceType := "parcel"
  resourceId := some "p-1"
  decision := none
  principalId := "u-1"
  payload := .dict [("tenant_id", .string "t-1")] (by decide)
  createdAt := "2026-01-01T00:00:00+00:00"
  prevHash := genesisHash
  hash := "b2703bdfabf47c69a22a445144bb3e834d157efd0f0d39073eecbf8c8f08e641"

def updatedEntry : AuditEntry where
  entryId := "00000000000040008000000000000002"
  action := "registry.parcel.updated"
  resourceType := "parcel"
  resourceId := some "p-1"
  decision := none
  principalId := "u-1"
  payload := .dict [("fields", .array [.string "title"])] (by decide)
  createdAt := "2026-01-01T00:00:01+00:00"
  prevHash := createdEntry.hash
  hash := "7a80d6114b2446e2e97de2b3f8bc1104824dafa4cff9d9d72c493b103d7bb571"

def archivedEntry : AuditEntry where
  entryId := "00000000000040008000000000000003"
  action := "registry.parcel.archived"
  resourceType := "parcel"
  resourceId := some "p-1"
  decision := none
  principalId := "u-1"
  payload := .empty
  createdAt := "2026-01-01T00:00:01+00:00"
  prevHash := createdEntry.hash
  hash := "fd284e2756073609b94b7130f5a854aac2bc8f606496c354a02db08b28d07626"

/-- SHA-256 on the texts of the three entries. -/
abbrev sampleDigest : String → String :=
  recordedDigest [createdEntry, updatedEntry, archivedEntry]

theorem sample_recomputed : ∀ entry ∈ [createdEntry, updatedEntry, archivedEntry],
    entry.recomputeHash sampleDigest = entry.hash :=
  fun _ member => recomputeHash_recordedDigest (by decide) member

theorem sample_descends {entries : List AuditEntry} (created : createdEntry ∈ entries) :
    ∀ entry ∈ [createdEntry, updatedEntry, archivedEntry],
      DescendsToGenesis entries entry.prevHash := by
  have base : DescendsToGenesis entries createdEntry.hash := .link created .root
  simpa using ⟨.root, base, base⟩

/-! ## The verdict -/

/-- `verify_chain` answers `True` exactly when no hash is stored twice, every
stored hash is recomputed, and the predecessors of every entry lead to
`GENESIS_HASH`; then every predecessor resolves and nothing is cyclic. The order
of the entries does not matter. -/
theorem verifyChain_iff (sha256 : String → String) (entries : List AuditEntry)
    (rootless : ∀ entry ∈ entries, entry.recomputeHash sha256 ≠ genesisHash) :
    (verifyChain sha256 entries = true ↔
      (entries.map AuditEntry.hash).Nodup ∧
      (∀ entry ∈ entries, entry.hash = entry.recomputeHash sha256) ∧
      ∀ entry ∈ entries, DescendsToGenesis entries entry.prevHash) ∧
    (verifyChain sha256 entries = true →
      (∀ entry ∈ entries, entry.prevHash ≠ genesisHash →
        ∃ predecessor ∈ entries, predecessor.hash = entry.prevHash) ∧
      ∀ h, ¬ Relation.TransGen (Precedes entries) h h) ∧
    ∀ entries', entries.Perm entries' → verifyChain sha256 entries' = verifyChain sha256 entries := by
  have above : (∀ entry ∈ entries, entry.recomputeHash sha256 = entry.hash) →
      ∀ entry ∈ entries, entry.hash ≠ genesisHash :=
    fun recomputed entry member => recomputed entry member ▸ rootless entry member
  refine ⟨?_, ?_, ?_⟩
  · rw [verifyChain_eq_true]
    constructor
    · rintro ⟨unique, recomputed, descends⟩
      refine ⟨unique, fun entry member => (recomputed entry member).symm, fun entry member => ?_⟩
      exact (reachesRoot_node unique member (above recomputed entry member)).mp
        (descends entry member)
    · rintro ⟨unique, recomputed, descends⟩
      exact ⟨unique, fun entry member => (recomputed entry member).symm,
        fun entry member => .link member (descends entry member)⟩
  · rw [verifyChain_eq_true]
    intro wellFormed
    have above := above wellFormed.recomputed
    constructor
    · intro entry member notRoot
      have descends := (reachesRoot_node wellFormed.unique member (above entry member)).mp
        (wellFormed.descends entry member)
      exact descends.resolves.resolve_left notRoot
    · intro h cycle
      have linked : Relation.TransGen
          (Link AuditEntry.hash AuditEntry.prevHash genesisHash entries) h h := by
        refine Relation.TransGen.mono (fun h h' precedes => ?_) h h cycle
        obtain ⟨entry, member, rfl, _⟩ := id precedes
        exact ⟨above entry member, precedes⟩
      obtain ⟨h', ⟨_, entry, member, rfl, _⟩, _⟩ := Relation.TransGen.head'_iff.mp linked
      exact (wellFormed.descends entry member).acyclic wellFormed.unique linked
  · intro entries' perm
    rw [Bool.eq_iff_iff, verifyChain_eq_true, verifyChain_eq_true]
    exact ⟨.perm perm.symm, .perm perm⟩

/-- The two branches verify, in this order as in any other, and neither verifies
without the entry it was built on. -/
theorem verifyChain_iff_sample :
    verifyChain sampleDigest [updatedEntry, createdEntry, archivedEntry] = true ∧
      verifyChain sampleDigest [updatedEntry, archivedEntry] = false := by
  have recomputed : ∀ entry ∈ [updatedEntry, createdEntry, archivedEntry],
      entry.hash = entry.recomputeHash sampleDigest :=
    fun entry member => (sample_recomputed entry ((List.Perm.swap ..).mem_iff.mp member)).symm
  have rootless : ∀ entry ∈ [updatedEntry, createdEntry, archivedEntry],
      entry.recomputeHash sampleDigest ≠ genesisHash := by
    intro entry member
    have above : ∀ entry ∈ [updatedEntry, createdEntry, archivedEntry],
        entry.hash ≠ genesisHash := by decide
    exact recomputed entry member ▸ above entry member
  constructor
  · refine (verifyChain_iff sampleDigest [updatedEntry, createdEntry, archivedEntry]
      rootless).1.mpr ⟨by decide, recomputed, fun entry member => ?_⟩
    exact sample_descends (by simp) entry ((List.Perm.swap ..).mem_iff.mp member)
  · have rootless' : ∀ entry ∈ [updatedEntry, archivedEntry],
        entry.recomputeHash sampleDigest ≠ genesisHash := by
      have subset : [updatedEntry, archivedEntry] ⊆ [updatedEntry, createdEntry, archivedEntry] := by
        simp
      exact fun entry member => rootless entry (subset member)
    refine Bool.eq_false_iff.mpr fun verified => ?_
    obtain ⟨predecessor, member, stored⟩ :=
      ((verifyChain_iff sampleDigest [updatedEntry, archivedEntry] rootless').2.1 verified).1
        updatedEntry (by simp) (by decide)
    have missing : ∀ entry ∈ [updatedEntry, archivedEntry],
        entry.hash ≠ updatedEntry.prevHash := by decide
    exact missing predecessor member stored

/-- **Tamper evidence.** Two lists that verify and share a hash share the entry
that stores it and the whole sequence of its predecessors. -/
theorem tamper_evident (sha256 : String → String) (entries entries' : List AuditEntry)
    (injective : ∀ e ∈ entries, ∀ e' ∈ entries', sha256 e.text = sha256 e'.text → e.text = e'.text)
    (verified : verifyChain sha256 entries = true) (verified' : verifyChain sha256 entries' = true)
    (h : String) (shared : h ∈ entries.map AuditEntry.hash)
    (shared' : h ∈ entries'.map AuditEntry.hash) :
    ∃ entry path,
      (∀ e ∈ entries, e.hash = h → e = entry) ∧ (∀ e ∈ entries', e.hash = h → e = entry) ∧
      (∀ p, Predecessors entries h p ↔ p = path) ∧ ∀ p, Predecessors entries' h p ↔ p = path := by
  have wellFormed := (verifyChain_eq_true sha256 entries).mp verified
  have wellFormed' := (verifyChain_eq_true sha256 entries').mp verified'
  have same : ∀ e ∈ entries, ∀ e' ∈ entries', e.hash = e'.hash → e = e' := by
    intro e member e' member' hash
    have digests : sha256 e.text = sha256 e'.text := by
      calc sha256 e.text = e.hash := wellFormed.recomputed e member
        _ = e'.hash := hash
        _ = sha256 e'.text := (wellFormed'.recomputed e' member').symm
    rw [AuditEntry.eq_of_text (injective e member e' member' digests), ← hash]
  obtain ⟨entry, member, rfl⟩ := List.mem_map.mp shared
  obtain ⟨entry', member', stored⟩ := List.mem_map.mp shared'
  cases same entry member entry' member' stored.symm
  obtain ⟨path, chain⟩ := (wellFormed.descends entry member).exists_predChain
  obtain ⟨path', chain'⟩ := (wellFormed'.descends entry member').exists_predChain
  have samePath : path = path' := chain.agree same chain'
  subst samePath
  refine ⟨entry, path, fun e m hash => eq_of_hash wellFormed.unique m member hash,
    fun e m hash => eq_of_hash wellFormed'.unique m member' hash, fun p => ⟨?_, ?_⟩,
    fun p => ⟨?_, ?_⟩⟩
  · exact fun chain' => chain'.agree (fun _ m _ m' => eq_of_hash wellFormed.unique m m') chain
  · rintro rfl
    exact chain
  · exact fun chain => chain.agree (fun _ m _ m' => eq_of_hash wellFormed'.unique m m') chain'
  · rintro rfl
    exact chain'

/-- A log and a copy of it with one more branch share the branch they have in common. -/
theorem tamper_evident_sample :
    ∃ entry path,
      (∀ e ∈ [createdEntry, updatedEntry], e.hash = updatedEntry.hash → e = entry) ∧
      (∀ e ∈ [archivedEntry, updatedEntry, createdEntry], e.hash = updatedEntry.hash → e = entry) ∧
      (∀ p, Predecessors [createdEntry, updatedEntry] updatedEntry.hash p ↔ p = path) ∧
      ∀ p, Predecessors [archivedEntry, updatedEntry, createdEntry] updatedEntry.hash p ↔
        p = path := by
  have verifies : ∀ entries : List AuditEntry,
      (entries.map AuditEntry.hash).Nodup → createdEntry ∈ entries →
      entries ⊆ [createdEntry, updatedEntry, archivedEntry] →
      verifyChain sampleDigest entries = true := by
    intro entries unique created subset
    exact (verifyChain_eq_true sampleDigest entries).mpr ⟨unique,
      fun entry member => sample_recomputed entry (subset member),
      fun entry member => .link member (sample_descends created entry (subset member))⟩
  refine tamper_evident sampleDigest [createdEntry, updatedEntry]
    [archivedEntry, updatedEntry, createdEntry] ?_ (verifies _ (by decide) (by simp) (by simp))
    (verifies _ (by decide) (by simp) (by simp)) updatedEntry.hash (by simp) (by simp)
  intro e member e' member' same
  have known : e ∈ [createdEntry, updatedEntry, archivedEntry] :=
    List.mem_append_left [archivedEntry] member
  have known' : e' ∈ [createdEntry, updatedEntry, archivedEntry] :=
    (List.reverse_perm [createdEntry, updatedEntry, archivedEntry]).mem_iff.mp member'
  have hashes : e.hash = e'.hash := by
    rw [← sample_recomputed e known, ← sample_recomputed e' known']
    exact same
  have distinct : ([createdEntry, updatedEntry, archivedEntry].map AuditEntry.hash).Nodup := by
    decide
  rw [eq_of_hash distinct known known' hashes]

end LandVault.Kernel.Audit
