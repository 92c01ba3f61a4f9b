import Mathlib.Algebra.Order.Group.Basic
import Mathlib.Data.List.Induction

/-!
# A sliding window over admitted requests

A limiter keeps the times of the requests that it has admitted, oldest first. Before it
judges a request it drops from the front what lies before the cutoff, and it admits the
request if fewer than `limit` times are left. What it keeps is exactly what it has admitted
since the cutoff of the last request (`replay_hits`), so no window of its length has more
than `limit` admitted requests (`admitted_le_limit`), and a request is turned away only where
one is full (`rejected_full`).
-/

set_option autoImplicit false

namespace LandVault.Library.SlidingWindow

variable {α : Type} [AddCommGroup α] [LinearOrder α]

/-- Drop from the front what lies before the cutoff. -/
def expire (cutoff : α) (hits : List α) : List α := hits.dropWhile (· < cutoff)

/-- A request at `now`: whether it is admitted, and what is kept. -/
def attempt (limit : Nat) (window : α) (hits : List α) (now : α) : Bool × List α :=
  let kept := expire (now - window) hits
  if limit ≤ kept.length then (false, kept) else (true, kept ++ [now])

/-- The requests so far with their outcomes, and what is kept of them. -/
structure Record (α : Type) where
  log : List (α × Bool) := []
  hits : List α := []

namespace Record

/-- The times of the requests that were admitted. -/
def admitted (record : Record α) : List α := (record.log.filter (·.2)).map (·.1)

/-- One more request. -/
def next (limit : Nat) (window : α) (record : Record α) (now : α) : Record α where
  log := record.log ++ [(now, (attempt limit window record.hits now).1)]
  hits := (attempt limit window record.hits now).2

end Record

/-- The requests at these times, one after another. -/
def replay (limit : Nat) (window : α) (times : List α) : Record α :=
  times.foldl (Record.next limit window) {}

/-- How many of the times lie in the closed window from `start`. -/
def within (window : α) (times : List α) (start : α) : Nat :=
  times.countP fun time => start ≤ time && time ≤ start + window

variable {limit : Nat} {window : α} {times : List α}

theorem replay_snoc (times : List α) (now : α) :
    replay limit window (times ++ [now]) = (replay limit window times).next limit window now := by
  rw [replay, List.foldl_append]
  rfl

/-! ## What is dropped -/

omit [AddCommGroup α] in
/-- Of times in order, exactly those before the cutoff are dropped. -/
theorem expire_eq_filter {hits : List α} (sorted : hits.Pairwise (· ≤ ·)) (cutoff : α) :
    expire cutoff hits = hits.filter (cutoff ≤ ·) := by
  induction hits with
  | nil => rfl
  | cons hit hits ih =>
      obtain ⟨oldest, sorted⟩ := List.pairwise_cons.mp sorted
      by_cases old : hit < cutoff
      · have dropped : expire cutoff (hit :: hits) = expire cutoff hits := by
          simp [expire, old]
        rw [dropped, ih sorted, List.filter_cons_of_neg (by simpa using old)]
      · have kept : expire cutoff (hit :: hits) = hit :: hits := by
          simp [expire, old]
        have current : ∀ time ∈ hit :: hits, cutoff ≤ time := by
          intro time member
          rcases List.mem_cons.mp member with rfl | member
          · exact not_lt.mp old
          · exact (not_lt.mp old).trans (oldest time member)
        rw [kept, List.filter_eq_self.mpr (by simpa using current)]

/-- Where the limit is reached, a request is admitted if the oldest time is dropped. -/
theorem attempt_full_iff {hit : α} {hits : List α}
    (full : (hit :: hits).length = limit) (now : α) :
    (attempt limit window (hit :: hits) now).1 = true ↔ hit < now - window := by
  by_cases old : hit < now - window
  · have fewer : (expire (now - window) (hit :: hits)).length < limit := by
      have dropped : expire (now - window) (hit :: hits) = expire (now - window) hits := by
        simp [expire, old]
      rw [dropped, ← full, List.length_cons]
      exact Nat.lt_succ_of_le (List.dropWhile_sublist _).length_le
    simp [attempt, old, not_le.mpr fewer]
  · have kept : expire (now - window) (hit :: hits) = hit :: hits := by
      simp [expire, old]
    simp [attempt, old, kept, full]

/-! ## What is kept -/

theorem admitted_next (record : Record α) (now : α) :
    (record.next limit window now).admitted =
      if (attempt limit window record.hits now).1 then record.admitted ++ [now]
      else record.admitted := by
  cases outcome : (attempt limit window record.hits now).1 <;>
    simp [Record.next, Record.admitted, outcome]

/-- Admitted times are times of requests, in order. -/
theorem admitted_sublist (times : List α) : (replay limit window times).admitted.Sublist times := by
  induction times using List.reverseRecOn with
  | nil => exact .refl _
  | append_singleton times now ih =>
      rw [replay_snoc, admitted_next]
      split
      · exact ih.append (.refl _)
      · exact ih.trans (List.sublist_append_left _ _)

variable [IsOrderedAddMonoid α]

/-- What is left of a history before a request is judged, if as much was kept of it as the
last request has left. -/
theorem expire_kept {admitted hits : List α} {now : α} (sorted : admitted.Pairwise (· ≤ ·))
    (later : ∀ time ∈ times, time ≤ now)
    (kept : hits = admitted.filter fun time => times.getLast?.all fun last =>
      last - window ≤ time) :
    expire (now - window) hits = admitted.filter (now - window ≤ ·) := by
  rw [kept, expire_eq_filter (sorted.sublist List.filter_sublist), List.filter_filter]
  refine List.filter_congr fun time _ => ?_
  cases given : times.getLast? with
  | none => simp
  | some last =>
      have before : last ≤ now := later last (List.mem_of_getLast? given)
      have weaker : now - window ≤ time → last - window ≤ time :=
        (sub_le_sub_right before window).trans
      simpa using weaker

/-- **The limiter keeps what it has admitted since the cutoff of the last request.** -/
theorem replay_hits (long : 0 ≤ window) (sorted : times.Pairwise (· ≤ ·)) :
    (replay limit window times).hits = (replay limit window times).admitted.filter
      fun time => times.getLast?.all fun last => last - window ≤ time := by
  induction times using List.reverseRecOn with
  | nil => rfl
  | append_singleton times now ih =>
      obtain ⟨earlier, _, order⟩ := List.pairwise_append.mp sorted
      have kept := expire_kept (earlier.sublist (admitted_sublist times))
        (fun time member => order time member now (by simp)) (ih earlier)
      rw [replay_snoc, admitted_next, List.getLast?_concat]
      simp only [Record.next, attempt, kept, Option.all_some]
      split
      · simp
      · simp [List.filter_append, long]

variable (limit) in
/-- What is left of a history before a request is judged. -/
theorem expire_replay (long : 0 ≤ window) {now : α} (sorted : times.Pairwise (· ≤ ·))
    (later : ∀ time ∈ times, time ≤ now) :
    expire (now - window) (replay limit window times).hits =
      (replay limit window times).admitted.filter (now - window ≤ ·) :=
  expire_kept (sorted.sublist (admitted_sublist times)) later (replay_hits long sorted)

/-! ## The bound -/

/-- The requests of a window that ends now are those since the cutoff. -/
theorem within_now {admitted : List α} {now : α} (later : ∀ time ∈ admitted, time ≤ now) :
    within window admitted (now - window) = (admitted.filter (now - window ≤ ·)).length := by
  rw [within, ← List.countP_eq_length_filter]
  refine List.countP_congr fun time member => ?_
  simp [later time member]

variable (limit) in
/-- **No closed window has more admitted requests than the limit.** -/
theorem admitted_le_limit (long : 0 ≤ window) (sorted : times.Pairwise (· ≤ ·)) (start : α) :
    within window (replay limit window times).admitted start ≤ limit := by
  induction times using List.reverseRecOn with
  | nil => exact Nat.zero_le _
  | append_singleton times now ih =>
      obtain ⟨earlier, _, order⟩ := List.pairwise_append.mp sorted
      have later : ∀ time ∈ times, time ≤ now := fun time member => order time member now (by simp)
      have kept := expire_replay limit long earlier later
      rw [replay_snoc, admitted_next]
      split
      · rename_i admits
        have fewer : ((replay limit window times).admitted.filter (now - window ≤ ·)).length <
            limit := by
          rw [attempt, kept] at admits
          split at admits
          · cases admits
          · exact not_le.mp ‹_›
        by_cases inside : start ≤ now ∧ now ≤ start + window
        · -- what the window has of the others lies after the cutoff of this request
          have cutoff : now - window ≤ start := sub_le_iff_le_add.mpr inside.2
          have others : within window (replay limit window times).admitted start ≤
              ((replay limit window times).admitted.filter (now - window ≤ ·)).length := by
            rw [within, ← List.countP_eq_length_filter]
            refine List.countP_mono_left fun time _ holds => ?_
            simp only [Bool.and_eq_true, decide_eq_true_eq] at holds ⊢
            exact cutoff.trans holds.1
          simp only [within, List.countP_append, List.countP_singleton, inside] at others ⊢
          simp
          omega
        · have outside : within window ((replay limit window times).admitted ++ [now]) start =
              within window (replay limit window times).admitted start := by
            simp [within, List.countP_append, inside]
          rw [outside]
          exact ih earlier
      · exact ih earlier

/-- **A request is turned away only where its window is full.** -/
theorem rejected_full (long : 0 ≤ window) (sorted : times.Pairwise (· ≤ ·)) {now : α}
    (rejected : (now, false) ∈ (replay limit window times).log) :
    within window (replay limit window times).admitted (now - window) = limit := by
  refine le_antisymm (admitted_le_limit limit long sorted _) ?_
  induction times using List.reverseRecOn with
  | nil => cases rejected
  | append_singleton times last ih =>
      obtain ⟨earlier, _, order⟩ := List.pairwise_append.mp sorted
      have later : ∀ time ∈ times, time ≤ last := fun time member => order time member last (by simp)
      have grows : within window (replay limit window times).admitted (now - window) ≤
          within window (replay limit window (times ++ [last])).admitted (now - window) := by
        rw [replay_snoc, admitted_next]
        split
        · rw [within, within, List.countP_append]
          exact Nat.le_add_right _ _
        · exact le_rfl
      rw [replay_snoc] at rejected
      rcases List.mem_append.mp rejected with old | new
      · exact (ih earlier old).trans grows
      · obtain ⟨rfl, outcome⟩ := Prod.mk.inj (List.mem_singleton.mp new)
        refine le_trans ?_ grows
        rw [within_now fun time member => later time ((admitted_sublist times).subset member),
          ← expire_replay limit long earlier later]
        rw [attempt] at outcome
        split at outcome
        · assumption
        · cases outcome

end LandVault.Library.SlidingWindow
