/-
  MinePanel.Auth.Lockout
  ──────────────────────
  **FIVE WRONG CODES, THEN A LOCK.**

  `completeTwoFactorLogin` checks the lock of its user first and records a
  wrong code last; the comparisons between the two are awaited, so other calls
  run there.  `Count` is the rule itself: wrong codes fall into windows of ten
  minutes, the fifth of a window sets a lock of fifteen minutes.

  The code follows the rule as long as no wrong code is recorded while the lock
  of its user is in force (`spaced`): then no window holds more than five, and
  every check before the deadline rejects its call (`lock_holds`).  A call that
  passed its check before the fifth failure breaks it: its own record is a sixth
  one, or, once the window is over, removes the lock.
-/
import MinePanel.Accounts.Steps

namespace MinePanel.Accounts

open MinePanel.Db MinePanel.Lib Prog

namespace Lockout

/-! ## §1. The rule. -/

/-- What the rule knows of one user since the last success. -/
structure Count where
  /-- The start of the counting window and the wrong codes in it. -/
  window : Option (Nat × Nat)
  lockedUntil : Option Nat
  deriving Repr, DecidableEq

namespace Count

/-- No wrong code yet. -/
def blank : Count := ⟨none, none⟩

/-- The window of a wrong code at `now`, with this code. -/
def bumped (c : Count) (now : Nat) : Nat × Nat :=
  match c.window with
  | some (start, n) => if now - start < twoFactorAttemptWindowMs then (start, n + 1) else (now, 1)
  | none => (now, 1)

/-- A wrong code at `now`; a lock stays until a success clears it. -/
def wrong (c : Count) (now : Nat) : Count where
  window := some (c.bumped now)
  lockedUntil :=
    if twoFactorFailureLimit ≤ (c.bumped now).2 then some (now + twoFactorLockoutMs)
    else c.lockedUntil

end Count

/-- A lock check of a call. -/
structure Check where
  call : Pid
  user : UserId
  time : Nat
  /-- The deadline of the lock that has been set. -/
  deadline : Option Nat
  rejected : Bool
  deriving Repr, DecidableEq

/-- The history of the wrong codes. -/
structure Diary where
  counts : UserId → Count
  checks : List Check
  /-- The calls whose check rejected them. -/
  refused : Pid → Bool

namespace Diary

/-- A process that has just started. -/
def blank : Diary := ⟨fun _ => .blank, [], fun _ => false⟩

/-- A step of call `p`: a wrong code is recorded, a success clears. -/
def step (o : Diary) (w : World) (p : Pid) : ∀ {β : Type}, Act β → β → Diary
  | _, .assertTwoFactorNotLocked u, rejected =>
      { o with
        checks := ⟨p, u, w.clock, (o.counts u).lockedUntil, rejected⟩ :: o.checks
        refused := Function.update o.refused p rejected }
  | _, .recordTwoFactorFailure u, _ =>
      { o with counts := Function.update o.counts u ((o.counts u).wrong w.clock) }
  | _, .clearTwoFactorFailures u, _ =>
      { o with counts := Function.update o.counts u .blank }
  | _, _, _ => o

end Diary

/-- Every interleaving; a process that dies forgets its counters. -/
def tally : Watch Act World Env Op Diary where
  onInvoke := fun o _ p _ => { o with refused := Function.update o.refused p false }
  onStep := fun o w p _ _ a b _ => o.step w p a b
  onReboot := fun o _ _ => { o with counts := fun _ => .blank }

/-- The lock of the user is in force. -/
def isLocked (w : World) (u : UserId) : Bool :=
  ((w.twoFactorFailures.find u).bind TwoFactorFailure.lockedUntil).any fun t => decide (w.clock < t)

/-- No wrong code of a locked user. -/
def calm (w : World) : ∀ {β : Type}, Act β → Bool
  | _, .recordTwoFactorFailure u => !isLocked w u
  | _, _ => true

/-- The interleavings that record no wrong code under a lock. -/
def spaced : Watch Act World Env Op Diary :=
  { tally with guard := fun _ w _ _ _ a _ => calm w a }

/-! ## §2. The stored entry follows the rule. -/

/-- The entry `recordTwoFactorFailure` stores. -/
def failureAfter (previous : Option TwoFactorFailure) (now : Nat) : TwoFactorFailure :=
  let activeFailure := previous.filter fun previous =>
    decide (now - previous.firstFailureAt < twoFactorAttemptWindowMs)
  let failures := (activeFailure.map TwoFactorFailure.failures).getD 0 + 1
  { failures := failures
    firstFailureAt := (activeFailure.map TwoFactorFailure.firstFailureAt).getD now
    lockedUntil :=
      if twoFactorFailureLimit ≤ failures then some (now + twoFactorLockoutMs) else none }

theorem find_recordFailure (m : TwoFactorFailures) (u : UserId) (now : Nat) (v : UserId) :
    (m.recordFailure u now).find v = if u = v then some (failureAfter (m.find u) now) else m.find v :=
  OrderedMap.find_set m u _ v

/-- The entry of a user says what the rule says. -/
inductive Agrees (c : Count) (now : Nat) : Option TwoFactorFailure → Prop where
  /-- Nothing is stored: the window is over, the lock has run out. -/
  | clear : (∀ t n, c.window = some (t, n) → t + twoFactorAttemptWindowMs ≤ now) →
      (∀ t n, c.window = some (t, n) → n ≤ twoFactorFailureLimit) →
      (∀ t, c.window = some (t, twoFactorFailureLimit) →
        ∃ L, c.lockedUntil = some L ∧ t + twoFactorLockoutMs ≤ L) →
      (∀ L, c.lockedUntil = some L → L ≤ now) → Agrees c now none
  | counting {t n} : c.window = some (t, n) → n < twoFactorFailureLimit → t ≤ now →
      (∀ L, c.lockedUntil = some L → L ≤ now) → Agrees c now (some ⟨n, t, none⟩)
  | locked {t L} : c.window = some (t, twoFactorFailureLimit) → c.lockedUntil = some L →
      t + twoFactorLockoutMs ≤ L → Agrees c now (some ⟨twoFactorFailureLimit, t, some L⟩)

theorem Agrees.blank (now : Nat) : Agrees .blank now none := by
  refine .clear ?_ ?_ ?_ ?_ <;> simp [Count.blank]

/-- Time passes. -/
theorem Agrees.later {c : Count} {now now' : Nat} {f : Option TwoFactorFailure}
    (h : Agrees c now f) (hle : now ≤ now') : Agrees c now' f := by
  cases h with
  | clear hwindow hbound hfifth hlock =>
      exact .clear (fun t n ht => (hwindow t n ht).trans hle) hbound hfifth
        fun L hL => (hlock L hL).trans hle
  | counting hwindow hn hstart hlock =>
      exact .counting hwindow hn (hstart.trans hle) fun L hL => (hlock L hL).trans hle
  | locked hwindow hL hle' => exact .locked hwindow hL hle'

/-- One more in the window of the stored entry. -/
theorem failureAfter_within {f : TwoFactorFailure} {now : Nat}
    (h : now - f.firstFailureAt < twoFactorAttemptWindowMs) :
    failureAfter (some f) now = ⟨f.failures + 1, f.firstFailureAt,
      if twoFactorFailureLimit ≤ f.failures + 1 then some (now + twoFactorLockoutMs) else none⟩ := by
  simp only [failureAfter, Option.filter_some, decide_eq_true h, if_true, Option.map_some,
    Option.getD_some]

/-- The window of the stored entry is over. -/
theorem failureAfter_over {f : TwoFactorFailure} {now : Nat}
    (h : ¬ now - f.firstFailureAt < twoFactorAttemptWindowMs) :
    failureAfter (some f) now = ⟨1, now, none⟩ := by
  simp only [failureAfter, Option.filter_some, decide_eq_false h, Bool.false_eq_true, if_false,
    Option.map_none, Option.getD_none]
  rfl

/-- A wrong code that starts a window. -/
theorem Agrees.first {c : Count} {now : Nat}
    (hover : ∀ t n, c.window = some (t, n) → t + twoFactorAttemptWindowMs ≤ now)
    (hlock : ∀ L, c.lockedUntil = some L → L ≤ now) :
    Agrees (c.wrong now) now (some ⟨1, now, none⟩) := by
  have hbumped : c.bumped now = (now, 1) := by
    unfold Count.bumped
    split
    next t n ht =>
      have hle := hover t n ht
      have hout : ¬ now - t < twoFactorAttemptWindowMs := by omega
      rw [if_neg hout]
    next => rfl
  have hone : ¬ twoFactorFailureLimit ≤ 1 := by decide
  refine .counting ?_ (by decide) le_rfl ?_
  · simp [Count.wrong, hbumped]
  · intro L hL
    simp only [Count.wrong, hbumped, if_neg hone] at hL
    exact hlock L hL

/-- **A recorded wrong code follows the rule**, where no lock is in force. -/
theorem Agrees.record {c : Count} {now : Nat} {f : Option TwoFactorFailure}
    (h : Agrees c now f)
    (hfree : (f.bind TwoFactorFailure.lockedUntil).any (fun t => decide (now < t)) = false) :
    Agrees (c.wrong now) now (some (failureAfter f now)) := by
  cases h with
  | clear hwindow _ _ hlock => exact Agrees.first hwindow hlock
  | @counting t n hwindow hn hle hlock =>
      by_cases hin : now - t < twoFactorAttemptWindowMs
      · -- one more in the same window: the fifth sets the lock
        have hbumped : c.bumped now = (t, n + 1) := by simp [Count.bumped, hwindow, hin]
        rw [failureAfter_within hin]
        by_cases hfive : twoFactorFailureLimit ≤ n + 1
        · have heq : n + 1 = twoFactorFailureLimit := by omega
          simp only [heq, le_refl, if_true]
          refine .locked ?_ (by simp [Count.wrong, hbumped, heq]) ?_
          · simp [Count.wrong, hbumped, heq]
          · omega
        · simp only [if_neg hfive]
          refine .counting (by simp [Count.wrong, hbumped]) (by omega) hle ?_
          intro L hL
          simp only [Count.wrong, hbumped, if_neg hfive] at hL
          exact hlock L hL
      · rw [failureAfter_over hin]
        refine Agrees.first (fun t' n' ht' => ?_) hlock
        rw [hwindow] at ht'
        obtain ⟨rfl, -⟩ := Prod.mk.inj (Option.some.inj ht')
        omega
  | @locked t L hwindow hL hle =>
      -- a lock that has run out is older than its window
      have hout : ¬ now < L := by simpa using hfree
      have hwide : twoFactorAttemptWindowMs ≤ twoFactorLockoutMs := by decide
      rw [failureAfter_over (by show ¬ now - t < twoFactorAttemptWindowMs; omega)]
      refine Agrees.first (fun t' n' ht' => ?_) fun L' hL' => ?_
      · rw [hwindow] at ht'
        obtain ⟨rfl, -⟩ := Prod.mk.inj (Option.some.inj ht')
        omega
      · rw [hL] at hL'
        obtain rfl := Option.some.inj hL'
        omega

/-- What the lock check answers, and what it leaves. -/
theorem Agrees.check {c : Count} {now : Nat} {m : TwoFactorFailures} {u : UserId}
    (h : Agrees c now (m.find u)) :
    Agrees c now ((m.assertNotLocked u now).2.find u) ∧
      ∀ L, c.lockedUntil = some L → now < L → (m.assertNotLocked u now).1 = true := by
  unfold TwoFactorFailures.assertNotLocked
  cases hf : m.find u with
  | none =>
      rw [hf] at h
      refine ⟨by simpa [hf] using h, fun L hL hlt => ?_⟩
      cases h with
      | clear _ _ _ hlock => exact absurd hlt (by have := hlock L hL; omega)
  | some f =>
      rw [hf] at h
      cases h with
      | counting hwindow hn hle hlock =>
          refine ⟨?_, fun L hL hlt => absurd hlt (by have := hlock L hL; omega)⟩
          simp only [Option.bind_some, hf]
          exact .counting hwindow hn hle hlock
      | @locked t L hwindow hL hle =>
          simp only [Option.bind_some]
          by_cases hlt : now < L
          · simp only [if_pos hlt, hf]
            exact ⟨.locked hwindow hL hle, fun _ _ _ => trivial⟩
          · simp only [if_neg hlt, OrderedMap.find_delete_self]
            have hwide : twoFactorAttemptWindowMs ≤ twoFactorLockoutMs := by decide
            refine ⟨.clear (fun t' n' ht' => ?_) (fun t' n' ht' => ?_) (fun t' ht' => ?_)
              fun L' hL' => ?_, fun L' hL' hlt' => ?_⟩
            · rw [hwindow] at ht'
              obtain ⟨rfl, -⟩ := Prod.mk.inj (Option.some.inj ht')
              omega
            · rw [hwindow] at ht'
              obtain ⟨-, rfl⟩ := Prod.mk.inj (Option.some.inj ht')
              exact le_rfl
            · rw [hwindow] at ht'
              obtain ⟨rfl, -⟩ := Prod.mk.inj (Option.some.inj ht')
              exact ⟨L, hL, hle⟩
            · rw [hL] at hL'
              obtain rfl := Option.some.inj hL'
              omega
            · rw [hL] at hL'
              obtain rfl := Option.some.inj hL'
              exact absurd hlt' hlt

/-- No window holds more than five, and the fifth has set a lock. -/
theorem Agrees.bound {c : Count} {now : Nat} {f : Option TwoFactorFailure}
    (h : Agrees c now f) {t : Nat} {n : Nat} (hw : c.window = some (t, n)) :
    n ≤ twoFactorFailureLimit ∧ (n = twoFactorFailureLimit →
      ∃ L, c.lockedUntil = some L ∧ t + twoFactorLockoutMs ≤ L) := by
  cases h with
  | clear _ hbound hfifth _ =>
      refine ⟨hbound t n hw, ?_⟩
      rintro rfl
      exact hfifth t hw
  | counting hwindow hn _ _ =>
      rw [hwindow] at hw
      obtain ⟨-, rfl⟩ := Prod.mk.inj (Option.some.inj hw)
      exact ⟨hn.le, fun heq => absurd heq hn.ne⟩
  | locked hwindow hL hle =>
      rw [hwindow] at hw
      obtain ⟨rfl, rfl⟩ := Prod.mk.inj (Option.some.inj hw)
      exact ⟨le_rfl, fun _ => ⟨_, hL, hle⟩⟩

/-! ## §3. The monitor. -/

/-- How far a call has come. -/
inductive Phase where
  /-- Before its lock check, or a call without one. -/
  | fresh
  | checked
  | rejected
  deriving Repr, DecidableEq

namespace Phase

/-- A rejected call does nothing more, and no call checks twice. -/
def allow (m : Phase) {β : Type} (a : Act β) : Prop :=
  m ≠ .rejected ∧ (m = .checked → Power.lockCheck ∉ a.powers)

/-- The phase after a step. -/
def next (m : Phase) : ∀ {β : Type}, Act β → β → Phase
  | _, .assertTwoFactorNotLocked _, b => if b then .rejected else .checked
  | _, _, _ => m

theorem next_of_powers (m : Phase) {β : Type} {a : Act β} (h : Power.lockCheck ∉ a.powers) (b : β) :
    m.next a b = m := by
  cases a with
  | assertTwoFactorNotLocked u => exact absurd List.mem_cons_self h
  | _ => rfl

end Phase

/-- The monitor of every operation. -/
def monitor : Monitor Act Phase where
  allow := fun m a => m.allow a
  next := fun m a b m' => m' = m.next a b

/-- What a locked call throws. -/
def lockedExn : Exn := .tooManyRequests "Two-factor authentication is temporarily locked"

/-- A call that returns was not rejected. -/
def Returned (m : Phase) : Prop := m ≠ .rejected

/-- A rejected call throws 429. -/
def Thrown (e : Exn) (m : Phase) : Prop := m = .rejected → e = lockedExn

/-- Without the check, the monitor does not notice. -/
theorem ignores {ps : List Power} (hps : Power.lockCheck ∉ ps) {m : Phase} (hm : m ≠ .rejected) :
    monitor.Ignores (fun _ a => a.powers ⊆ ps) m := by
  intro β a ha
  have hpower : Power.lockCheck ∉ a.powers := fun h => hps (ha h)
  refine ⟨⟨hm, fun _ => hpower⟩, fun b m' h => ?_⟩
  have h : m' = m.next a b := h
  rw [h, m.next_of_powers hpower]

theorem wp_quiet {α : Type} {ps : List Power} {p : Call α} (hp : Within ps p)
    (hps : Power.lockCheck ∉ ps) {m : Phase} (hm : m ≠ .rejected) :
    wp monitor (fun _ => Returned) Thrown p m :=
  wp_of_only hp (ignores hps hm) (fun _ => hm) fun _ _ h => absurd h hm

theorem completeTwoFactorLogin_follows (S : Settings) (userId : UserId) (token : String)
    (fingerprint : Option String) :
    wp monitor (fun _ => Returned) Thrown (completeTwoFactorLogin S userId token fingerprint)
      .fresh := by
  have hread : Within [] (findById userId) := within_query (List.nil_subset _)
  unfold completeTwoFactorLogin
  refine wp_seq (wp_of_only hread (ignores (by decide) nofun) (fun found => ?_) fun e _ h => nomatch h)
  split
  next => exact nofun
  next user _ =>
    have hallowed : Within [] (assertLoginAllowed user) := within_assertLoginAllowed user
    refine wp_seq (wp_of_only hallowed (ignores (by decide) nofun) (fun _ => ?_)
      fun e _ h => nomatch h)
    refine wp_seq (wp_perform ⟨nofun, nofun⟩ fun rejected m' h => ?_)
    cases rejected with
    | true =>
        have h : m' = .rejected := h
        rw [h]
        exact fun _ => rfl
    | false =>
        -- everything after the check leaves the lock check alone
        have h : m' = .checked := h
        rw [h]
        have hps : Power.lockCheck ∉ [Power.secondFactor, .credential, .issue, .lockout] := by decide
        refine wp_quiet ?_ hps nofun
        refine within_guard (within_guard ?_)
        refine within_bind (within_perform (List.nil_subset _)) fun now => ?_
        exact within_guard (within_evaluate S user token _ (by decide) (by decide) (by decide)
          (by decide))

/-- **Every operation follows the monitor.** -/
theorem body_follows (S : Settings) (op : Op) :
    wp monitor (fun _ => Returned) Thrown (body S op) .fresh := by
  cases op with
  | verify2FA bearer token =>
      have hnow : Within [] (Prog.perform .now : Call Timestamp) := within_perform (List.nil_subset _)
      show wp _ _ _ ((verify2FA S bearer token).bind _) _
      refine wp_seq (wp_mono _ _ (fun _ _ h => h) (fun _ _ h => h) ?_)
      unfold verify2FA
      refine wp_seq (wp_of_only hnow (ignores (by decide) nofun) (fun now => ?_)
        fun e _ h => nomatch h)
      split
      next => exact completeTwoFactorLogin_follows S _ token _
      next => exact nofun
  | _ => exact wp_quiet (body_within S _) (by simp [Op.powers]) nofun

/-! ## §4. Every run. -/

/-- The invariant of the runs. -/
structure Kept (w : World) (o : Diary) (gs : Pid → Phase) : Prop where
  agrees : ∀ u, Agrees (o.counts u) w.clock (w.twoFactorFailures.find u)
  checks : ∀ k ∈ o.checks, ∀ L, k.deadline = some L → k.time < L → k.rejected = true
  refused : ∀ p, o.refused p = true → gs p = .rejected

/-- The three steps that look at the counters. -/
def isCounter : ∀ {β : Type}, Act β → Bool
  | _, .assertTwoFactorNotLocked _ => true
  | _, .recordTwoFactorFailure _ => true
  | _, .clearTwoFactorFailures _ => true
  | _, _ => false

/-- The other steps leave the counters alone. -/
theorem exec_counters {S : Settings} {p : Pid} {β : Type} {a : Act β} {e : Env} {b : β}
    {w w' : World} (ha : isCounter a = false) (h : exec S p a e w = some (b, w')) :
    w'.twoFactorFailures = w.twoFactorFailures := by
  cases a with
  | query s => rcases exec_query h with ⟨-, rfl⟩ | ⟨-, -, -, rfl⟩ <;> rfl
  | begin => rcases exec_begin h with ⟨-, rfl⟩ | ⟨-, -, rfl⟩ <;> rfl
  | commit => rcases exec_commit h with ⟨-, rfl⟩ | ⟨-, rfl⟩ <;> rfl
  | randomInt min max =>
      simp only [exec] at h
      split at h <;> cases h
      rfl
  | createRefreshTokenId =>
      simp only [exec] at h
      split at h <;> cases h
      rfl
  | assertTwoFactorNotLocked u => cases ha
  | recordTwoFactorFailure u => cases ha
  | clearTwoFactorFailures u => cases ha
  | _ =>
      cases h
      rfl

/-- The other steps are not in the history. -/
theorem step_counters {o : Diary} {w : World} {p : Pid} {β : Type} {a : Act β} {b : β} (m : Phase)
    (ha : isCounter a = false) : o.step w p a b = o ∧ m.next a b = m := by
  cases a with
  | assertTwoFactorNotLocked u => cases ha
  | recordTwoFactorFailure u => cases ha
  | clearTwoFactorFailures u => cases ha
  | _ => exact ⟨rfl, rfl⟩

/-- The check looks at one entry only. -/
theorem find_assertNotLocked (m : TwoFactorFailures) {u v : UserId} (now : Nat) (hv : v ≠ u) :
    (m.assertNotLocked u now).2.find v = m.find v := by
  unfold TwoFactorFailures.assertNotLocked
  split
  next => rfl
  next =>
    split
    next => rfl
    next => exact OrderedMap.find_delete_of_ne _ hv

section Runs

variable {S : Settings} {w w' : World} {o : Diary} {gs : Pid → Phase} {p : Pid} {e : Env}

/-- The lock check of a call. -/
theorem Kept.check {u : UserId} (h : Kept w o gs) :
    Kept { w with twoFactorFailures := (w.twoFactorFailures.assertNotLocked u w.clock).2 }
      (o.step w p (.assertTwoFactorNotLocked u) (w.twoFactorFailures.assertNotLocked u w.clock).1)
      (Function.update gs p ((gs p).next (.assertTwoFactorNotLocked u)
        (w.twoFactorFailures.assertNotLocked u w.clock).1)) := by
  obtain ⟨hstay, hreject⟩ := (h.agrees u).check
  refine ⟨fun v => ?_, ?_, fun q hq => ?_⟩
  · by_cases hv : v = u
    · subst hv
      exact hstay
    · show Agrees (o.counts v) w.clock ((w.twoFactorFailures.assertNotLocked u w.clock).2.find v)
      rw [find_assertNotLocked _ _ hv]
      exact h.agrees v
  · intro k hk L hL hlt
    rcases List.mem_cons.mp hk with rfl | hk
    · exact hreject L hL hlt
    · exact h.checks k hk L hL hlt
  · by_cases hqp : q = p
    · subst hqp
      have hq : (w.twoFactorFailures.assertNotLocked u w.clock).1 = true := by
        simpa [Diary.step] using hq
      simp [Phase.next, hq]
    · have hq : o.refused q = true := by simpa [Diary.step, hqp] using hq
      rw [Function.update_of_ne hqp]
      exact h.refused q hq

/-- The counter of `u` moves, and the rule with it. -/
theorem Kept.count {u : UserId} {m' : TwoFactorFailures} {c : Count} (h : Kept w o gs)
    (hself : Agrees c w.clock (m'.find u))
    (hother : ∀ v, v ≠ u → m'.find v = w.twoFactorFailures.find v) :
    Kept { w with twoFactorFailures := m' } { o with counts := Function.update o.counts u c } gs := by
  refine ⟨fun v => ?_, h.checks, h.refused⟩
  by_cases hv : v = u
  · subst hv
    simpa using hself
  · show Agrees (Function.update o.counts u c v) w.clock (m'.find v)
    rw [Function.update_of_ne hv, hother v hv]
    exact h.agrees v

theorem Kept.step {β : Type} {a : Act β} {b : β} (h : Kept w o gs) (hcalm : calm w a = true)
    (hx : exec S p a e w = some (b, w')) :
    Kept w' (o.step w p a b) (Function.update gs p ((gs p).next a b)) := by
  cases ha : isCounter a with
  | true =>
      cases a with
      | assertTwoFactorNotLocked u =>
          obtain ⟨rfl, rfl⟩ := Prod.mk.inj (Option.some.inj hx)
          exact h.check
      | recordTwoFactorFailure u =>
          obtain ⟨rfl, rfl⟩ := Prod.mk.inj (Option.some.inj hx)
          have hfree : isLocked w u = false := by simpa [calm] using hcalm
          have hself := (h.agrees u).record hfree
          show Kept _ _ (Function.update gs p (gs p))
          rw [Function.update_eq_self]
          refine h.count ?_ fun v hv => ?_
          · rw [find_recordFailure, if_pos rfl]
            exact hself
          · rw [find_recordFailure, if_neg fun heq => hv heq.symm]
      | clearTwoFactorFailures u =>
          obtain ⟨rfl, rfl⟩ := Prod.mk.inj (Option.some.inj hx)
          show Kept _ _ (Function.update gs p (gs p))
          rw [Function.update_eq_self]
          refine h.count ?_ fun v hv => OrderedMap.find_delete_of_ne _ hv
          rw [OrderedMap.find_delete_self]
          exact Agrees.blank _
      | _ => cases ha
  | false =>
      obtain ⟨ho, hm⟩ := step_counters (gs p) ha
      rw [ho, hm, Function.update_eq_self]
      refine ⟨fun u => ?_, h.checks, h.refused⟩
      rw [exec_counters ha hx, exec_clock hx]
      exact h.agrees u

/-- The surroundings move the clock, not the counters. -/
theorem Kept.ambient (h : Kept w o gs) (hx : ambient e w = some w') : Kept w' o gs := by
  have hclock : w.clock ≤ w'.clock := (ambient_frame hx).2.2.2.2.2.1
  have hsame : w'.twoFactorFailures = w.twoFactorFailures := by
    unfold Accounts.ambient at hx
    split at hx
    next =>
      split at hx
      next =>
        cases hx
        rfl
      next => cases hx
    next =>
      cases hx
      rfl
    next =>
      split at hx
      next => cases hx
      next =>
        cases hx
        rfl
  refine ⟨fun u => ?_, h.checks, h.refused⟩
  rw [hsame]
  exact (h.agrees u).later hclock

/-- **The invariant holds in every configuration reached.** -/
theorem kept_run {d : Db} {clock : Timestamp} {c : Conf} {o : Diary}
    (h : (system S).Reach spaced (Config.init (World.boot d clock)) Diary.blank c o) :
    ∃ gs, Kept c.world o gs ∧
      System.Tracks (fun _ => monitor) .fresh (fun _ _ => Returned) (fun _ => Thrown) c gs := by
  refine System.Reach.sound (fun _ => .fresh) Kept (fun {_ _ _ op} _ => body_follows S op)
    (fun {w o gs p op} hI hidle _ => ?_) (fun {w o gs p op β a e b w'} hI ha hg hx => ?_)
    (fun {w o gs e w'} hI hx => hI.ambient hx)
    (fun {w o gs e w'} alive hI hx hdone hlost => ?_) ?_ h
  · -- a new call has not been refused
    refine ⟨hI.agrees, hI.checks, fun q hq => ?_⟩
    by_cases hqp : q = p
    · subst hqp
      simp [spaced, tally] at hq
    · have hq : o.refused q = true := by simpa [spaced, tally, hqp] using hq
      rw [Function.update_of_ne hqp]
      exact hI.refused q hq
  · exact ⟨_, rfl, hI.step hg hx⟩
  · -- the counters are gone; a refused call had ended
    cases hx
    refine ⟨fun u => Agrees.blank _, hI.checks, fun q hq => ?_⟩
    have hrejected : gs q = .rejected := hI.refused q hq
    cases halive : alive q with
    | true => simpa using hrejected
    | false =>
        rcases hlost q halive with hidle | ⟨op, β, a, hallow⟩
        · rw [hidle] at hrejected
          cases hrejected
        · exact absurd hrejected hallow.1
  · exact ⟨fun u => Agrees.blank _, fun k hk => absurd hk List.not_mem_nil, nofun⟩

/-- **THE LOCK HOLDS**, in every run that records no wrong code of a user whose
lock is in force: no window holds more than five wrong codes and the fifth has
set a lock; a check before the deadline of a lock that no success has cleared
rejects its call; and a rejected call has failed with 429. -/
theorem lock_holds (S : Settings) (d : Db) (clock : Timestamp) (c : Conf) (o : Diary)
    (h : (system S).Reach spaced (Config.init (World.boot d clock)) Diary.blank c o) :
    (∀ u t n, (o.counts u).window = some (t, n) →
        n ≤ twoFactorFailureLimit ∧ (n = twoFactorFailureLimit →
          ∃ L, (o.counts u).lockedUntil = some L ∧ t + twoFactorLockoutMs ≤ L)) ∧
      (∀ k ∈ o.checks, ∀ L, k.deadline = some L → k.time < L → k.rejected = true) ∧
      ∀ p, o.refused p = true →
        ∃ op, c.failed p op (.tooManyRequests "Two-factor authentication is temporarily locked") := by
  obtain ⟨gs, hI, hT⟩ := kept_run h
  refine ⟨fun u t n hw => (hI.agrees u).bound hw, hI.checks, fun p hp => ?_⟩
  have hrejected : gs p = .rejected := hI.refused p hp
  cases hc : c.calls p with
  | none =>
      rw [hT.not_invoked hc] at hrejected
      cases hrejected
  | some t =>
      obtain ⟨op, rest⟩ := t
      have hwp := hT.wp hc
      rw [hrejected] at hwp
      cases rest with
      | ret r => exact absurd rfl hwp
      | fail e =>
          obtain rfl : e = lockedExn := hwp rfl
          exact ⟨op, hc⟩
      | act a k => exact absurd rfl hwp.1.1

end Runs

/-! ## §5. Concrete runs. -/

/-- An account with a second factor and one backup code left. -/
def sampleWorld : World :=
  World.boot
    { sampleDb with
      users := ⟨[{ sampleAccount 3 "steve@example.com" "steve" .user with
        totpSecret := some "JBSWY3DPEHPK3PXP", totpEnabled := true
        totpBackupCodes := some [newHash] }], by decide⟩ } 1700000000000

/-- A second factor with a wrong code. -/
def wrongCode : Op := .verify2FA (.signed ⟨.preAuth 3 none, 1700000300⟩) "deadbeef-deadbeef"

/-- Call `p` passes its lock check and compares its code. -/
def evaluates (p : Pid) : List (Event Env Op) :=
  [.invoke p wrongCode, .step p {}, .step p {}, .step p {}, .step p {}, .step p {}]

/-- Five wrong codes one after the other, then a rejected call. -/
def fiveThenLocked : List (Event Env Op) :=
  [1, 2, 3, 4, 5].flatMap (fun p => evaluates p ++ [.step p {}]) ++ (evaluates 6).take 4

theorem fiveThenLocked_rejected :
    ∃ c o, (system sampleSettings).Reach spaced (Config.init sampleWorld) Diary.blank c o ∧
      (o.counts 3).window = some (1700000000000, 5) ∧ o.refused 6 = true ∧
      (∃ op, c.failed 6 op
        (.tooManyRequests "Two-factor authentication is temporarily locked")) := by
  obtain ⟨c, o, hreach, ht⟩ := System.Reach.of_replay (S := system sampleSettings) (V := spaced)
    sampleWorld Diary.blank fiveThenLocked
    (fun _ o => decide ((o.counts 3).window = some (1700000000000, 5)) && o.refused 6)
    (by decide +kernel)
  simp only [Bool.and_eq_true, decide_eq_true_eq] at ht
  exact ⟨c, o, hreach, ht.1, ht.2, (lock_holds sampleSettings _ _ c o hreach).2.2 6 ht.2⟩

/-- Six calls pass their lock check before any of them records. -/
def sixAtOnce : List (Event Env Op) :=
  [1, 2, 3, 4, 5, 6].flatMap evaluates ++ [1, 2, 3, 4, 5, 6].map fun p => .step p {}

/-- The sixth records eleven minutes later; a seventh call comes. -/
def lateRecord : List (Event Env Op) :=
  [1, 2, 3, 4, 5, 6].flatMap evaluates ++ [1, 2, 3, 4, 5].map (fun p => .step p {}) ++
    [.ambient { ambient := .tick 1700000660000 }, .step 6 {},
      .invoke 7 (.verify2FA (.signed ⟨.preAuth 3 none, 1700000900⟩) "deadbeef-deadbeef"),
      .step 7 {}, .step 7 {}, .step 7 {}]

/-- Without the condition a window holds six wrong codes, and a check four
minutes before the deadline lets its call through. -/
theorem late_record_breaks_lock :
    (∃ c o, (system sampleSettings).Reach tally (Config.init sampleWorld) Diary.blank c o ∧
        (o.counts 3).window = some (1700000000000, 6)) ∧
      ∃ c o, (system sampleSettings).Reach tally (Config.init sampleWorld) Diary.blank c o ∧
        ⟨7, 3, 1700000660000, some 1700000900000, false⟩ ∈ o.checks := by
  constructor
  · obtain ⟨c, o, hreach, ht⟩ := System.Reach.of_replay (S := system sampleSettings) (V := tally)
      sampleWorld Diary.blank sixAtOnce
      (fun _ o => decide ((o.counts 3).window = some (1700000000000, 6))) (by decide +kernel)
    exact ⟨c, o, hreach, by simpa using ht⟩
  · obtain ⟨c, o, hreach, ht⟩ := System.Reach.of_replay (S := system sampleSettings) (V := tally)
      sampleWorld Diary.blank lateRecord
      (fun _ o => decide ((⟨7, 3, 1700000660000, some 1700000900000, false⟩ : Check) ∈ o.checks))
      (by decide +kernel)
    exact ⟨c, o, hreach, by simpa using ht⟩

end Lockout

end MinePanel.Accounts
