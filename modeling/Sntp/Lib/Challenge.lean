import Sntp.Lib.Run

/-!
# One-time challenges

A party issues challenges and redeems answers to them. It remembers one challenge
at most: issuing replaces the one it remembers, redeeming forgets it, and it may
forget it for reasons of its own. That alone makes it replay-proof. Over every run
of a party that starts with no challenge:

- `redeemed_is_last`: what is redeemed is the last challenge issued;
- `issue_between`: between two redemptions there is an issue;
- `redeemed_le_issued`: there are no more redemptions than issues;
- `redeemed_sublist`: they are redeemed in the order they were issued, so challenges
  that are all different are redeemed once (`redeemed_once`).

Nothing here says what a challenge is, or what it takes to redeem one.
-/

namespace Challenge

open Transition

variable {ν : Type*}

/-- What a party does about challenges. -/
inductive Act (ν : Type*)
  | issue (n : ν)
  | redeem (n : ν)
  | forget
  | idle

/-- The challenge an act issues. -/
def Act.issued : Act ν → Option ν
  | issue n => some n
  | _ => none

/-- The challenge an act redeems. -/
def Act.redeemed : Act ν → Option ν
  | redeem n => some n
  | _ => none

/-- What an act does to the challenge remembered. -/
inductive Step : Option ν → Act ν → Option ν → Prop
  | issue (s : Option ν) (n : ν) : Step s (.issue n) (some n)
  | redeem (n : ν) : Step (some n) (.redeem n) none
  | forget (s : Option ν) : Step s .forget none
  | idle (s : Option ν) : Step s .idle s

/-- The last challenge issued. -/
def lastIssued (acts : List (Act ν)) : Option ν := (acts.filterMap Act.issued).getLast?

theorem lastIssued_append (acts : List (Act ν)) (a : Act ν) :
    lastIssued (acts ++ [a]) = a.issued.or (lastIssued acts) := by
  unfold lastIssued
  rw [List.filterMap_append]
  cases h : a.issued with
  | none => rw [List.filterMap_cons_none h, List.filterMap_nil, List.append_nil]; rfl
  | some n =>
    rw [List.filterMap_cons_some h, List.filterMap_nil, List.getLast?_concat]
    rfl

namespace Step

variable {s t : Option ν} {a : Act ν}

/-- Only the challenge remembered can be redeemed, and it is gone then. -/
theorem of_redeemed (h : Step s a t) {n : ν} (hn : a.redeemed = some n) :
    s = some n ∧ t = none := by
  cases h with
  | redeem m =>
    obtain rfl := Option.some.inj hn
    exact ⟨rfl, rfl⟩
  | _ => cases hn

/-- Without an issue, the challenge remembered is kept or lost. -/
theorem of_not_issued (h : Step s a t) (hissued : a.issued = none) : t = s ∨ t = none := by
  cases h with
  | issue n => cases hissued
  | redeem n => exact Or.inr rfl
  | forget => exact Or.inr rfl
  | idle => exact Or.inl rfl

/-- What is remembered is always the last challenge issued. -/
theorem remembers {acts : List (Act ν)} (h : Step s a t) (hs : s = none ∨ lastIssued acts = s) :
    t = none ∨ lastIssued (acts ++ [a]) = t := by
  rw [lastIssued_append]
  cases h with
  | issue n => exact Or.inr rfl
  | redeem n => exact Or.inl rfl
  | forget => exact Or.inl rfl
  | idle => exact hs

end Step

variable {s t : Option ν} {acts : List (Act ν)}

theorem remembers_of_run (h : Run Step none acts t) : t = none ∨ lastIssued acts = t :=
  Run.history (J := fun acts s => s = none ∨ lastIssued acts = s)
    (fun hs hstep => hstep.remembers hs) h (Or.inl rfl)

/-- A party without a challenge has none until it issues one. -/
theorem none_of_run (h : Run Step none acts t) (hissued : ∀ a ∈ acts, a.issued = none) :
    t = none := by
  refine Run.inv_of_forall (I := fun s => s = none) ?_ h hissued rfl
  intro s a t hs hissued hstep
  rcases hstep.of_not_issued hissued with hkept | hlost
  · rw [hkept, hs]
  · exact hlost

/-- **What is redeemed is the last challenge issued.** -/
theorem redeemed_is_last {pre post : List (Act ν)} {a : Act ν} {n : ν}
    (h : Run Step none (pre ++ a :: post) t) (hn : a.redeemed = some n) :
    lastIssued pre = some n := by
  obtain ⟨s, _, hpre, hstep, _⟩ := h.split_cons
  obtain ⟨rfl, _⟩ := hstep.of_redeemed hn
  rcases remembers_of_run hpre with hnone | hlast
  · cases hnone
  · exact hlast

/-- **Between two redemptions there is an issue.** -/
theorem issue_between {pre mid post : List (Act ν)} {a b : Act ν}
    (h : Run Step s (pre ++ a :: (mid ++ b :: post)) t) (ha : a.redeemed ≠ none)
    (hb : b.redeemed ≠ none) : ∃ c ∈ mid, c.issued ≠ none := by
  obtain ⟨m, hm⟩ := Option.ne_none_iff_exists'.mp ha
  obtain ⟨n, hn⟩ := Option.ne_none_iff_exists'.mp hb
  obtain ⟨_, s₁, _, hfirst, hrest⟩ := h.split_cons
  obtain ⟨s₂, _, hmid, hsecond, _⟩ := hrest.split_cons
  obtain ⟨_, rfl⟩ := hfirst.of_redeemed hm
  obtain ⟨rfl, _⟩ := hsecond.of_redeemed hn
  by_contra hissued
  push Not at hissued
  cases none_of_run hmid hissued

/-- **There are no more redemptions than issues**, counting the challenge the
party started with. -/
theorem redeemed_le_issued (h : Run Step s acts t) :
    (acts.filterMap Act.redeemed).length + t.toList.length
      ≤ s.toList.length + (acts.filterMap Act.issued).length := by
  induction h with
  | nil s => simp
  | cons hstep _ ih =>
    -- a redemption spends the challenge remembered, and only an issue brings one in
    cases hstep with
    | issue s n =>
      simp only [Act.redeemed, Act.issued, List.filterMap_cons, List.length_cons,
        Option.toList_some, List.length_nil] at ih ⊢
      omega
    | redeem n =>
      simp only [Act.redeemed, Act.issued, List.filterMap_cons, List.length_cons,
        Option.toList_some, Option.toList_none, List.length_nil] at ih ⊢
      omega
    | forget s =>
      simp only [Act.redeemed, Act.issued, List.filterMap_cons, Option.toList_none,
        List.length_nil] at ih ⊢
      omega
    | idle s => simpa only [Act.redeemed, Act.issued, List.filterMap_cons] using ih

/-- **The challenges redeemed are some of those issued, in order**, counting the one the
party started with. -/
theorem redeemed_sublist (h : Run Step s acts t) :
    (acts.filterMap Act.redeemed).Sublist (s.toList ++ acts.filterMap Act.issued) := by
  induction h with
  | nil s => exact List.nil_sublist _
  | @cons s _ _ a acts hstep _ ih =>
    cases hstep with
    | issue s n => exact ih.trans (List.sublist_append_right s.toList _)
    | redeem n => exact ih.cons_cons n
    | forget s => exact ih.trans (List.sublist_append_right s.toList _)
    | idle s => exact ih

/-- Of challenges that are all different, none is redeemed twice. -/
theorem redeemed_once {pre mid post : List (Act ν)} {a b : Act ν} {n m : ν}
    (h : Run Step none (pre ++ a :: (mid ++ b :: post)) t) (ha : a.redeemed = some n)
    (hb : b.redeemed = some m)
    (hissued : ((pre ++ a :: (mid ++ b :: post)).filterMap Act.issued).Nodup) : n ≠ m := by
  have hredeemed := (redeemed_sublist h).nodup hissued
  rw [List.filterMap_append, List.filterMap_cons_some ha, List.filterMap_append,
    List.filterMap_cons_some hb] at hredeemed
  intro hnm
  have hnot := (List.nodup_cons.mp (List.nodup_append.mp hredeemed).2.1).1
  rw [hnm] at hnot
  exact hnot (List.mem_append_right _ List.mem_cons_self)

end Challenge
