/-
  MinePanel.Lib.Ticket
  ────────────────────
  **SINGLE-USE TICKETS.**

  Calls take tickets and spend them later.  A ticket `k` is taken at most once;
  whoever has taken it holds it until it is spent or lost.  So every ticket is
  spent at most once, whatever the calls do in between.

    * `Tickets` — the invariant: what was taken, what was spent, who holds what;
    * `Tickets.take`, `Tickets.spend`, `Tickets.keep` — its three moves;
    * `length_filter_le_one` — what is spent once has one entry.
-/
import MinePanel.Lib.System
import Mathlib.Data.List.Nodup

namespace MinePanel.Lib

/-- Where no key comes twice, at most one entry has the key `k`. -/
theorem length_filter_le_one {κ σ : Type} [DecidableEq κ] {ys : List σ} {f : σ → Option κ} {k : κ}
    {p : σ → Bool} (h : (ys.filterMap f).Nodup) (hp : ∀ y ∈ ys, p y = true → f y = some k) :
    (ys.filter p).length ≤ 1 := by
  have hmono : ys.countP p ≤ ys.countP fun y => f y == some k :=
    List.countP_mono_left fun y hy hpy => beq_iff_eq.mpr (hp y hy hpy)
  rw [← List.count_filterMap] at hmono
  rw [← List.countP_eq_length_filter]
  exact Nat.le_trans hmono (List.nodup_iff_count_le_one.mp h k)

/-- The tickets `taken` and `spent` so far, and what every call holds. -/
structure Tickets {κ : Type} (taken spent : List κ) (held : Pid → Option κ) : Prop where
  once : spent.Nodup
  sub : spent ⊆ taken
  holds : ∀ {p k}, held p = some k → k ∈ taken ∧ k ∉ spent
  alone : ∀ {p q k}, held p = some k → held q = some k → p = q

namespace Tickets

variable {κ : Type} {taken spent : List κ} {held held' : Pid → Option κ} {p : Pid} {k : κ}

theorem empty : Tickets ([] : List κ) [] fun _ => none :=
  ⟨List.nodup_nil, fun _ h => h, nofun, nofun⟩

/-- Nobody holds anything new. -/
theorem keep (h : Tickets taken spent held) (hheld : ∀ q k, held' q = some k → held q = some k) :
    Tickets taken spent held' :=
  ⟨h.once, h.sub, fun hp => h.holds (hheld _ _ hp),
    fun hp hq => h.alone (hheld _ _ hp) (hheld _ _ hq)⟩

/-- More tickets are gone. -/
theorem widen {taken' : List κ} (h : Tickets taken spent held) (hsub : taken ⊆ taken') :
    Tickets taken' spent held :=
  ⟨h.once, fun _ hx => hsub (h.sub hx), fun hp => (h.holds hp).imp_left fun hk => hsub hk, h.alone⟩

/-- Call `p` takes a ticket that nobody has taken. -/
theorem take (h : Tickets taken spent held) (hk : k ∉ taken) (hp : held' p = some k)
    (hother : ∀ q, q ≠ p → held' q = held q) : Tickets (k :: taken) spent held' := by
  refine ⟨h.once, fun _ hx => List.mem_cons_of_mem _ (h.sub hx), fun {q k'} hq => ?_,
    fun {q r k'} hq hr => ?_⟩
  · by_cases hqp : q = p
    · rw [hqp, hp] at hq
      obtain rfl := Option.some.inj hq
      exact ⟨List.mem_cons_self, fun hspent => hk (h.sub hspent)⟩
    · rw [hother q hqp] at hq
      obtain ⟨htaken, hfree⟩ := h.holds hq
      exact ⟨List.mem_cons_of_mem _ htaken, hfree⟩
  · -- whoever else held `k` would have taken it before
    have hnew : ∀ {x y : Pid}, x = p → y ≠ p → held' x = some k' → held' y = some k' → False := by
      intro x y hx hy hxk hyk
      rw [hx, hp] at hxk
      obtain rfl := Option.some.inj hxk
      rw [hother y hy] at hyk
      exact hk (h.holds hyk).1
    by_cases hqp : q = p
    · by_cases hrp : r = p
      · rw [hqp, hrp]
      · exact (hnew hqp hrp hq hr).elim
    · by_cases hrp : r = p
      · exact (hnew hrp hqp hr hq).elim
      · rw [hother q hqp] at hq
        rw [hother r hrp] at hr
        exact h.alone hq hr

/-- Call `p` spends the ticket it holds. -/
theorem spend (h : Tickets taken spent held) (hk : held p = some k) (hp : held' p = none)
    (hother : ∀ q, q ≠ p → held' q = held q) : Tickets taken (k :: spent) held' := by
  have hold : ∀ {q k'}, held' q = some k' → q ≠ p ∧ held q = some k' := by
    intro q k' hq
    by_cases hqp : q = p
    · rw [hqp, hp] at hq
      cases hq
    · rw [hother q hqp] at hq
      exact ⟨hqp, hq⟩
  refine ⟨List.nodup_cons.mpr ⟨(h.holds hk).2, h.once⟩,
    List.cons_subset.mpr ⟨(h.holds hk).1, h.sub⟩, fun {q k'} hq => ?_, fun {q r k'} hq hr => ?_⟩
  · obtain ⟨hqp, hq⟩ := hold hq
    obtain ⟨htaken, hfree⟩ := h.holds hq
    refine ⟨htaken, fun hmem => ?_⟩
    rcases List.mem_cons.mp hmem with rfl | hspent
    · exact hqp (h.alone hq hk)
    · exact hfree hspent
  · exact h.alone (hold hq).2 (hold hr).2

end Tickets

end MinePanel.Lib
