import LandVault.Library.SlidingWindow
import Mathlib.Algebra.Order.Floor.Ring
import Mathlib.Data.Rat.Floor

/-!
# The rate limiter

The middleware keeps, for each client and each limited path, the times of the requests that
it has passed on. What one key has is a sliding window over the requests of that key
(`serve_replay`); requests of other keys leave it alone (`serve_own`). A request that is
turned away is told when to come back, in whole seconds that are cut off from the time until
the oldest request leaves the window: too early wherever a second or more is left.

Times are those of a monotonic clock, as numbers of an ordered field.
-/

set_option autoImplicit false

namespace LandVault.Kernel.RateLimit

open Library.SlidingWindow

/-! ## The middleware -/

/-- A limit: how many requests in how many seconds. -/
abbrev Limit := Nat × Nat

/-- `RATE_LIMITS`. -/
def rateLimits : List (String × Limit) :=
  [("/v1/auth/login", (10, 60)), ("/v1/auth/register", (5, 60)), ("/v1/auth/refresh", (30, 60)),
    ("/v1/auth/invitations/accept", (5, 60))]

/-- What the middleware reads of a request: the host of its TCP peer, its path and its URL. -/
structure HttpRequest where
  client : Option String
  path : String
  url : String

/-- The content of a 429, and its `Retry-After`. -/
structure Problem where
  type : String := "about:blank"
  title : String := "Too Many Requests"
  status : Nat := 429
  detail : String
  url : String
  retryAfter : Int
  deriving DecidableEq

/-- A request is passed on, or it is answered here. -/
inductive Answer where
  | forwarded
  | tooManyRequests (problem : Problem)
  deriving DecidableEq

def Answer.isForwarded : Answer → Bool
  | .forwarded => true
  | .tooManyRequests _ => false

/-- `path.startswith(...)`. -/
def startsWith (path start : String) : Bool := start.toList.isPrefixOf path.toList

section Middleware

variable (limits : List (String × Limit))

/-- `_bucket`. -/
def bucket (path : String) : Option Limit :=
  (limits.find? fun entry => startsWith path entry.1).map (·.2)

/-- `_prefix_for`. -/
def prefixFor (path : String) : String :=
  ((limits.find? fun entry => startsWith path entry.1).map (·.1)).getD path

/-- `_client_ip`. -/
def clientIp (request : HttpRequest) : String := request.client.getD "unknown"

/-- The key of a request in `_hits`. -/
def hitsKey (request : HttpRequest) : String :=
  clientIp request ++ "::" ++ prefixFor limits request.path

/-- The key of a request that is limited. -/
def keyOf (request : HttpRequest) : Option String :=
  (bucket limits request.path).map fun _ => hitsKey limits request

variable {α : Type} [Field α] [LinearOrder α] [FloorRing α]

/-- `int(...)`, which cuts off what is after the point. -/
def toInt (x : α) : Int := if 0 ≤ x then ⌊x⌋ else ⌈x⌉

/-- The seconds of `Retry-After`, for the times that are left in the deque. -/
def retryAfter (window : Nat) (now : α) (kept : List α) : Int :=
  max 1 <| match kept with
    | [] => window
    | oldest :: _ => toInt (window - (now - oldest))

/-- `dispatch` of a limiter that is enabled. -/
def limit (hits : String → List α) (now : α) (request : HttpRequest) :
    Answer × (String → List α) :=
  match bucket limits request.path with
  | none => (.forwarded, hits)
  | some (maxRequests, window) =>
      let key := hitsKey limits request
      let kept := expire (now - window) (hits key)
      if maxRequests ≤ kept.length then
        (.tooManyRequests
          { detail := "Limit " ++ toString maxRequests ++ "/" ++ toString window ++
              "s exceeded for " ++ prefixFor limits request.path
            url := request.url
            retryAfter := retryAfter window now kept },
          Function.update hits key kept)
      else (.forwarded, Function.update hits key (kept ++ [now]))

/-- `RateLimitMiddleware.dispatch`. -/
def dispatch (enabled : Bool) (hits : String → List α) (now : α) (request : HttpRequest) :
    Answer × (String → List α) :=
  if enabled then limit limits hits now request else (.forwarded, hits)

end Middleware

/-! ## Requests over time -/

/-- A request and the moment at which it is dispatched. -/
structure Arrival (α : Type) where
  now : α
  request : HttpRequest

section Runs

variable {limits : List (String × Limit)} {α : Type} [Field α] [LinearOrder α] [FloorRing α]

/-- The requests so far with their answers, and `_hits`. -/
structure Run (α : Type) where
  log : List (Arrival α × Answer) := []
  hits : String → List α := fun _ => []

/-- One more request. -/
def Run.next (limits : List (String × Limit)) (run : Run α) (arrival : Arrival α) : Run α where
  log := run.log ++ [(arrival, (dispatch limits true run.hits arrival.now arrival.request).1)]
  hits := (dispatch limits true run.hits arrival.now arrival.request).2

/-- The requests, one after another, at a limiter that has seen nothing. -/
def serve (limits : List (String × Limit)) (arrivals : List (Arrival α)) : Run α :=
  arrivals.foldl (Run.next limits) {}

/-- The requests of a key. -/
def own (limits : List (String × Limit)) (key : String) (arrivals : List (Arrival α)) :
    List (Arrival α) :=
  arrivals.filter fun arrival => keyOf limits arrival.request = some key

/-- Their times. -/
def times (limits : List (String × Limit)) (key : String) (arrivals : List (Arrival α)) : List α :=
  (own limits key arrivals).map (·.now)

/-- The requests of a key with their answers. -/
def ownLog (limits : List (String × Limit)) (key : String) (run : Run α) :
    List (Arrival α × Answer) :=
  run.log.filter fun entry => keyOf limits entry.1.request = some key

/-- The times at which requests of a key were admitted. -/
def admitted (limits : List (String × Limit)) (key : String) (run : Run α) : List α :=
  ((ownLog limits key run).filter (·.2.isForwarded)).map (·.1.now)

/-- The limit of every request of the key. -/
def HasLimit (limits : List (String × Limit)) (key : String) (arrivals : List (Arrival α))
    (given : Limit) : Prop :=
  ∀ arrival ∈ arrivals, keyOf limits arrival.request = some key →
    bucket limits arrival.request.path = some given

theorem serve_snoc (arrivals : List (Arrival α)) (arrival : Arrival α) :
    serve limits (arrivals ++ [arrival]) = (serve limits arrivals).next limits arrival := by
  rw [serve, List.foldl_append]
  rfl

omit [Field α] [LinearOrder α] [FloorRing α] in
theorem own_snoc (key : String) (arrivals : List (Arrival α)) (arrival : Arrival α) :
    own limits key (arrivals ++ [arrival]) =
      if keyOf limits arrival.request = some key then own limits key arrivals ++ [arrival]
      else own limits key arrivals := by
  rw [own, List.filter_append, List.filter_cons]
  split <;> simp_all [own]

theorem ownLog_next (key : String) (run : Run α) (arrival : Arrival α) :
    ownLog limits key (run.next limits arrival) =
      if keyOf limits arrival.request = some key then
        ownLog limits key run ++
          [(arrival, (dispatch limits true run.hits arrival.now arrival.request).1)]
      else ownLog limits key run := by
  rw [ownLog, Run.next, List.filter_append, List.filter_cons]
  split <;> simp_all [ownLog]

/-! ## One key -/

variable {key : String} {hits hits' : String → List α} {arrival : Arrival α} {given : Limit}

/-- A request of another key leaves the deque of this one. -/
theorem hits_of_other (other : keyOf limits arrival.request ≠ some key) :
    (dispatch limits true hits arrival.now arrival.request).2 key = hits key := by
  simp only [dispatch, limit, if_true]
  cases limited : bucket limits arrival.request.path with
  | none => rfl
  | some given =>
      have different : key ≠ hitsKey limits arrival.request := by
        rintro rfl
        exact other (by rw [keyOf, limited]; rfl)
      simp only
      split <;> simp [Function.update_of_ne different]

/-- What becomes of a request depends on the deque of its key alone. -/
theorem dispatch_congr (mine : keyOf limits arrival.request = some key)
    (same : hits key = hits' key) :
    (dispatch limits true hits arrival.now arrival.request).1 =
      (dispatch limits true hits' arrival.now arrival.request).1 ∧
    (dispatch limits true hits arrival.now arrival.request).2 key =
      (dispatch limits true hits' arrival.now arrival.request).2 key := by
  obtain ⟨given, limited, rfl⟩ := Option.map_eq_some_iff.mp mine
  simp only [dispatch, limit, if_true, limited, same]
  split <;> simp

variable (hits) in
/-- It is an attempt at the window of the key. -/
theorem dispatch_attempt (mine : keyOf limits arrival.request = some key)
    (limited : bucket limits arrival.request.path = some given) :
    (dispatch limits true hits arrival.now arrival.request).1.isForwarded =
      (attempt given.1 (given.2 : α) (hits key) arrival.now).1 ∧
    (dispatch limits true hits arrival.now arrival.request).2 key =
      (attempt given.1 (given.2 : α) (hits key) arrival.now).2 := by
  obtain ⟨_, _, rfl⟩ := Option.map_eq_some_iff.mp mine
  simp only [dispatch, limit, if_true, limited, attempt]
  split <;> simp [Answer.isForwarded]

/-- **Requests of other keys change nothing** for a key. -/
theorem serve_own (key : String) (arrivals : List (Arrival α)) :
    ownLog limits key (serve limits arrivals) = (serve limits (own limits key arrivals)).log ∧
      (serve limits arrivals).hits key = (serve limits (own limits key arrivals)).hits key := by
  induction arrivals using List.reverseRecOn with
  | nil => exact ⟨rfl, rfl⟩
  | append_singleton arrivals arrival ih =>
      obtain ⟨sameLog, sameHits⟩ := ih
      rw [serve_snoc, own_snoc, ownLog_next]
      split
      · rename_i mine
        obtain ⟨answer, after⟩ := dispatch_congr mine sameHits
        rw [serve_snoc, sameLog, answer]
        exact ⟨rfl, after⟩
      · rename_i other
        exact ⟨sameLog, (hits_of_other other).trans sameHits⟩

/-- **What one key has is a sliding window** over its requests. -/
theorem serve_replay {arrivals : List (Arrival α)} (limited : HasLimit limits key arrivals given) :
    (ownLog limits key (serve limits arrivals)).map (fun entry => (entry.1.now, entry.2.isForwarded)) =
        (replay given.1 (given.2 : α) (times limits key arrivals)).log ∧
      (serve limits arrivals).hits key =
        (replay given.1 (given.2 : α) (times limits key arrivals)).hits := by
  induction arrivals using List.reverseRecOn with
  | nil => exact ⟨rfl, rfl⟩
  | append_singleton arrivals arrival ih =>
      obtain ⟨sameLog, sameHits⟩ := ih fun other member => limited other (List.mem_append_left _ member)
      rw [serve_snoc, times, own_snoc, ownLog_next]
      split
      · rename_i mine
        obtain ⟨answer, after⟩ := dispatch_attempt (serve limits arrivals).hits mine
          (limited arrival (by simp) mine)
        rw [List.map_append, List.map_append, sameLog, List.map_singleton, List.map_singleton,
          replay_snoc, answer]
        rw [sameHits] at after ⊢
        exact ⟨rfl, after⟩
      · rename_i other
        exact ⟨sameLog, (hits_of_other other).trans sameHits⟩

theorem admitted_replay {arrivals : List (Arrival α)} (limited : HasLimit limits key arrivals given) :
    admitted limits key (serve limits arrivals) =
      (replay given.1 (given.2 : α) (times limits key arrivals)).admitted := by
  rw [admitted, Record.admitted, ← (serve_replay limited).1, List.filter_map, List.map_map]
  rfl

variable [IsStrictOrderedRing α]

omit [FloorRing α] in
theorem window_nonneg (given : Limit) : (0 : α) ≤ (given.2 : α) := Nat.cast_nonneg _

/-! ## The bound -/

/-- **The limiter is a sliding window over each key**: no closed window of its length has
more admitted requests than the limit, a request is turned away only where its window has
exactly as many, the deque has the admitted times since the last cutoff, and other keys do
not matter. -/
theorem rate_limit_bound {arrivals : List (Arrival α)} (limited : HasLimit limits key arrivals given)
    (ordered : (times limits key arrivals).Pairwise (· ≤ ·)) :
    (∀ start, within (given.2 : α) (admitted limits key (serve limits arrivals)) start ≤ given.1) ∧
    (∀ arrival answer, (arrival, answer) ∈ (serve limits arrivals).log →
      keyOf limits arrival.request = some key → answer.isForwarded = false →
      within (given.2 : α) (admitted limits key (serve limits arrivals))
        (arrival.now - given.2) = given.1) ∧
    (serve limits arrivals).hits key =
      (admitted limits key (serve limits arrivals)).filter (fun time =>
        (times limits key arrivals).getLast?.all fun last => last - (given.2 : α) ≤ time) ∧
    ownLog limits key (serve limits arrivals) = (serve limits (own limits key arrivals)).log := by
  obtain ⟨log, hits⟩ := serve_replay limited
  rw [admitted_replay limited]
  refine ⟨admitted_le_limit given.1 (window_nonneg given) ordered, ?_, ?_, (serve_own key arrivals).1⟩
  · intro arrival answer member mine rejected
    have inOwn : (arrival, answer) ∈ ownLog limits key (serve limits arrivals) :=
      List.mem_filter.mpr ⟨member, decide_eq_true mine⟩
    refine rejected_full (window_nonneg given) ordered ?_
    rw [← log, ← rejected]
    exact List.mem_map_of_mem inOwn
  · rw [hits]
    exact replay_hits (window_nonneg given) ordered

/-- A login from one host. -/
def sampleLogin : HttpRequest where
  client := some "10.0.0.7"
  path := "/v1/auth/login"
  url := "http://localhost:8000/v1/auth/login"

/-- As many logins at one moment. -/
def burst (count : Nat) : List (Arrival ℚ) := List.replicate count ⟨0, sampleLogin⟩

theorem burst_hasLimit (count : Nat) :
    HasLimit rateLimits "10.0.0.7::/v1/auth/login" (burst count) (10, 60) := by
  intro arrival member _
  rw [List.eq_of_mem_replicate member]
  decide

theorem rate_limit_bound_burst :
    within 60 (admitted rateLimits "10.0.0.7::/v1/auth/login" (serve rateLimits (burst 11))) 0 ≤
      10 :=
  (rate_limit_bound (burst_hasLimit 11) (by decide +kernel)).1 0

/-! ## The advice -/

omit [IsStrictOrderedRing α] in
/-- Requests of other keys leave the deque as it is. -/
theorem serve_hits_of_others {arrivals between : List (Arrival α)}
    (others : ∀ arrival ∈ between, keyOf limits arrival.request ≠ some key) :
    (serve limits (arrivals ++ between)).hits key = (serve limits arrivals).hits key := by
  induction between using List.reverseRecOn with
  | nil => rw [List.append_nil]
  | append_singleton between arrival ih =>
      rw [← List.append_assoc, serve_snoc]
      exact (hits_of_other (others arrival (by simp))).trans
        (ih fun other member => others other (List.mem_append_left _ member))

/-- A request that is turned away leaves a full window, of requests in order. -/
theorem rejected_kept {arrivals : List (Arrival α)} {problem : Problem}
    (limited : HasLimit limits key arrivals given)
    (mine : keyOf limits arrival.request = some key)
    (bucketed : bucket limits arrival.request.path = some given)
    (ordered : (times limits key (arrivals ++ [arrival])).Pairwise (· ≤ ·))
    (rejected : (dispatch limits true (serve limits arrivals).hits arrival.now
      arrival.request).1 = .tooManyRequests problem) :
    ∃ kept, (serve limits (arrivals ++ [arrival])).hits key = kept ∧
      kept = (admitted limits key (serve limits arrivals)).filter (arrival.now - given.2 ≤ ·) ∧
      kept.Pairwise (· ≤ ·) ∧ kept.length = given.1 ∧
      problem.retryAfter = retryAfter given.2 arrival.now kept := by
  have both : times limits key (arrivals ++ [arrival]) = times limits key arrivals ++ [arrival.now] := by
    rw [times, own_snoc, if_pos mine, List.map_append]
    rfl
  rw [both] at ordered
  obtain ⟨earlier, _, order⟩ := List.pairwise_append.mp ordered
  have later : ∀ time ∈ times limits key arrivals, time ≤ arrival.now :=
    fun time member => order time member arrival.now (by simp)
  have kept := expire_replay given.1 (window_nonneg given) earlier later
  rw [← (serve_replay limited).2] at kept
  have inOrder : (admitted limits key (serve limits arrivals)).Pairwise (· ≤ ·) := by
    rw [admitted_replay limited]
    exact earlier.sublist (admitted_sublist _)
  have most := admitted_le_limit given.1 (window_nonneg (α := α) given) earlier
    (arrival.now - given.2)
  rw [within_now fun time member => later time ((admitted_sublist _).subset member),
    ← admitted_replay limited] at most
  rw [← admitted_replay limited] at kept
  obtain ⟨_, _, rfl⟩ := Option.map_eq_some_iff.mp mine
  simp only [dispatch, limit, if_true, bucketed] at rejected
  rw [serve_snoc, Run.next]
  simp only [dispatch, limit, if_true, bucketed]
  split at rejected
  · rename_i full
    rw [if_pos full]
    cases rejected
    refine ⟨_, Function.update_self .., kept, ?_, ?_, rfl⟩
    · rw [kept]
      exact inOrder.sublist List.filter_sublist
    · exact le_antisymm (kept ▸ most) full
  · cases rejected

/-- How long the oldest time stays in the window, of a time that is in it. -/
theorem retryAfter_cons {window : Nat} {now oldest : α} {rest : List α}
    (current : now - window ≤ oldest) :
    retryAfter window now (oldest :: rest) = max 1 ⌊window - (now - oldest)⌋ := by
  have left : 0 ≤ (window : α) - (now - oldest) := by
    rw [sub_nonneg, sub_le_comm]
    exact current
  simp only [retryAfter, toInt, if_pos left]

/-- **The advice of a 429 holds exactly where less than a second was left**: where some
request of the key was admitted in the first second of the window that ends now. -/
theorem retry_after_honest_iff {arrivals : List (Arrival α)} {problem : Problem}
    (limited : HasLimit limits key arrivals given)
    (mine : keyOf limits arrival.request = some key)
    (bucketed : bucket limits arrival.request.path = some given)
    (ordered : (times limits key (arrivals ++ [arrival])).Pairwise (· ≤ ·))
    (rejected : (dispatch limits true (serve limits arrivals).hits arrival.now
      arrival.request).1 = .tooManyRequests problem) :
    (∀ (between : List (Arrival α)) (later : Arrival α),
      (∀ other ∈ between, keyOf limits other.request ≠ some key) →
      keyOf limits later.request = some key →
      bucket limits later.request.path = some given →
      arrival.now + problem.retryAfter ≤ later.now →
      (dispatch limits true (serve limits (arrivals ++ [arrival] ++ between)).hits later.now
        later.request).1.isForwarded = true) ↔
    ∃ time ∈ admitted limits key (serve limits arrivals),
      arrival.now - given.2 ≤ time ∧ time < arrival.now - given.2 + 1 := by
  obtain ⟨kept, hits, since, sorted, full, advice⟩ :=
    rejected_kept limited mine bucketed ordered rejected
  -- a later request is an attempt at what this one has left
  have judged : ∀ between (later : Arrival α),
      (∀ other ∈ between, keyOf limits other.request ≠ some key) →
      keyOf limits later.request = some key → bucket limits later.request.path = some given →
      (dispatch limits true (serve limits (arrivals ++ [arrival] ++ between)).hits later.now
        later.request).1.isForwarded = (attempt given.1 (given.2 : α) kept later.now).1 := by
    intro between later others mine' bucketed'
    rw [(dispatch_attempt _ mine' bucketed').1, serve_hits_of_others others, hits]
  have atOnce (holds : ∀ (between : List (Arrival α)) (later : Arrival α),
      (∀ other ∈ between, keyOf limits other.request ≠ some key) →
      keyOf limits later.request = some key → bucket limits later.request.path = some given →
      arrival.now + problem.retryAfter ≤ later.now →
      (dispatch limits true (serve limits (arrivals ++ [arrival] ++ between)).hits later.now
        later.request).1.isForwarded = true) :
      (attempt given.1 (given.2 : α) kept (arrival.now + problem.retryAfter)).1 = true :=
    (judged [] ⟨arrival.now + problem.retryAfter, arrival.request⟩ nofun mine bucketed).symm.trans
      (holds [] ⟨arrival.now + problem.retryAfter, arrival.request⟩ nofun mine bucketed le_rfl)
  have early : (∃ time ∈ admitted limits key (serve limits arrivals),
      arrival.now - given.2 ≤ time ∧ time < arrival.now - given.2 + 1) ↔
        ∃ time ∈ kept, time < arrival.now - given.2 + 1 := by
    rw [since]
    simp [and_assoc]
  rw [early]
  cases kept with
  | nil =>
      refine ⟨fun holds => ?_, nofun⟩
      have admits := atOnce holds
      have none : given.1 = 0 := full.symm
      rw [attempt, none, if_pos (Nat.zero_le _)] at admits
      cases admits
  | cons oldest rest =>
      have current : arrival.now - given.2 ≤ oldest := by
        have member : oldest ∈ oldest :: rest := List.mem_cons_self
        rw [since, List.mem_filter] at member
        simpa using member.2
      rw [retryAfter_cons current] at advice
      have first : (∃ time ∈ oldest :: rest, time < arrival.now - given.2 + 1) ↔
          oldest < arrival.now - given.2 + 1 := by
        constructor
        · rintro ⟨time, member, before⟩
          rcases List.mem_cons.mp member with rfl | member
          · exact before
          · exact ((List.pairwise_cons.mp sorted).1 time member).trans_lt before
        · exact fun before => ⟨oldest, List.mem_cons_self, before⟩
      rw [first]
      constructor
      · intro holds
        have admits := atOnce holds
        rw [attempt_full_iff full, advice] at admits
        by_contra long
        have whole : 1 ≤ ⌊(given.2 : α) - (arrival.now - oldest)⌋ := by
          rw [Int.le_floor]
          push_cast
          linarith [not_lt.mp long]
        have cut := Int.floor_le ((given.2 : α) - (arrival.now - oldest))
        rw [max_eq_right whole] at admits
        linarith
      · intro soon between later others mine' bucketed' waited
        rw [judged between later others mine' bucketed', attempt_full_iff full]
        have one : (1 : α) ≤ (problem.retryAfter : α) := by
          have least : (1 : Int) ≤ problem.retryAfter := advice ▸ le_max_left _ _
          exact_mod_cast least
        linarith

theorem retry_after_honest_last :
    (dispatch rateLimits true (serve rateLimits (burst 10 ++ [⟨119 / 2, sampleLogin⟩] ++ [])).hits
      (121 / 2) sampleLogin).1.isForwarded = true := by
  have ordered : (times rateLimits "10.0.0.7::/v1/auth/login"
      (burst 10 ++ [⟨119 / 2, sampleLogin⟩])).Pairwise (· ≤ ·) := by
    decide +kernel
  have rejected : (dispatch rateLimits true (serve rateLimits (burst 10)).hits (119 / 2)
      sampleLogin).1 = .tooManyRequests
        { detail := "Limit 10/60s exceeded for /v1/auth/login"
          url := sampleLogin.url
          retryAfter := 1 } := by
    decide +kernel
  exact (retry_after_honest_iff (burst_hasLimit 10) (by decide) (by decide) ordered rejected).mpr
    ⟨0, by decide +kernel, by norm_num, by norm_num⟩ [] ⟨121 / 2, sampleLogin⟩ nofun (by decide)
    (by decide) (by norm_num)

/-- Ten logins at one moment: the eleventh is told to come back in 60 seconds, and turned away
then. -/
theorem retry_after_too_early :
    (dispatch rateLimits true (serve rateLimits (burst 10)).hits 0 sampleLogin).1 =
      .tooManyRequests
        { detail := "Limit 10/60s exceeded for /v1/auth/login"
          url := sampleLogin.url
          retryAfter := 60 } ∧
    (dispatch rateLimits true (serve rateLimits (burst 10 ++ [⟨0, sampleLogin⟩])).hits (0 + 60)
      sampleLogin).1.isForwarded = false := by
  decide +kernel

end Runs

/-! ## The limits of the service -/

/-- The text of a key from its first slash on is the path of the limit. -/
theorem hitsKey_path {request : HttpRequest} {given : Limit}
    (host : '/' ∉ (clientIp request).toList)
    (limited : bucket rateLimits request.path = some given) :
    ∃ entry ∈ rateLimits, entry.2 = given ∧
      (hitsKey rateLimits request).toList.dropWhile (· ≠ '/') = entry.1.toList := by
  obtain ⟨entry, found, rfl⟩ := Option.map_eq_some_iff.mp limited
  have member := List.mem_of_find?_eq_some found
  have slash : ∀ entry ∈ rateLimits, entry.1.toList.dropWhile (· ≠ '/') = entry.1.toList := by
    decide
  have before : ∀ c ∈ (clientIp request ++ "::").toList, decide (c ≠ '/') = true := by
    intro c inside
    rw [String.toList_append, List.mem_append] at inside
    rcases inside with inside | inside
    · exact decide_eq_true fun same => host (same ▸ inside)
    · have only : ∀ c ∈ "::".toList, c = ':' := by simp
      rw [only c inside]
      rfl
  refine ⟨entry, member, rfl, ?_⟩
  rw [hitsKey, prefixFor, found, Option.map_some, Option.getD_some, String.toList_append,
    List.dropWhile_append_of_pos before, slash entry member]

/-- Hosts have no slash, so the requests of a key have one limit. -/
theorem rateLimits_hasLimit {α : Type} {key : String} {arrivals : List (Arrival α)}
    {first : Arrival α} {given : Limit}
    (hosts : ∀ arrival ∈ first :: arrivals, '/' ∉ (clientIp arrival.request).toList)
    (mine : keyOf rateLimits first.request = some key)
    (bucketed : bucket rateLimits first.request.path = some given) :
    HasLimit rateLimits key arrivals given := by
  intro arrival member mine'
  obtain ⟨_, _, same⟩ := Option.map_eq_some_iff.mp mine
  obtain ⟨given', bucketed', same'⟩ := Option.map_eq_some_iff.mp mine'
  obtain ⟨entry, known, rfl, path⟩ := hitsKey_path (hosts first (by simp)) bucketed
  obtain ⟨entry', known', rfl, path'⟩ := hitsKey_path (hosts arrival (by simp [member])) bucketed'
  have distinct : ∀ entry ∈ rateLimits, ∀ entry' ∈ rateLimits,
      entry.1.toList = entry'.1.toList → entry.2 = entry'.2 := by decide
  rw [same] at path
  rw [same', path] at path'
  rw [bucketed', distinct entry known entry' known' path']

end LandVault.Kernel.RateLimit
