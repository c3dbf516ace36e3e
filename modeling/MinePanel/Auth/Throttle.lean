/-
  MinePanel.Auth.Throttle
  ───────────────────────
  **THE BOUNDS OF LOGIN THROTTLING.**

  `bump` counts from the first failure of a window, `prune` forgets an entry by
  its last one, and the oldest keys go when a map is full.  Seen from one pair
  the map is a single optional entry; what an attempt can do to it is said once,
  in `attend_view`, and both bounds are inductions over a history.

    * `attend`, `history` — attempts one after another;
    * `view` — the entry of one pair, `Sound` in every state;
    * `Within` — the failures of an interval, read off the entry;
    * `countingWindow` — the windows of a list of failures;
    * `login_throttled` — **the bounds**.
-/
import Mathlib.Logic.Equiv.Basic
import MinePanel.Auth.LoginAbuse

namespace MinePanel.Accounts

open MinePanel.Db MinePanel.Lib

namespace LoginAbuse

/-! ## §1. Attempts. -/

/-- How an attempt that was let through ends. -/
inductive Outcome where
  | failed
  | succeeded
  /-- An exception of another kind: nothing is recorded. -/
  | interrupted
  deriving Repr, DecidableEq

/-- One attempt: `assertAllowed` at `asked`, and what follows at `recorded`. -/
structure Attempt where
  context : LoginAttemptContext
  asked : Timestamp
  outcome : Outcome
  recorded : Timestamp
  deriving Repr, DecidableEq

/-- What became of an attempt; `tracked` is the number of pairs in the map when
its outcome was recorded. -/
structure Record where
  attempt : Attempt
  allowed : Bool
  tracked : Nat
  deriving Repr, DecidableEq

variable (T : Text)

/-- An attempt on its own. -/
def attend (a : LoginAbuse) (x : Attempt) : Record × LoginAbuse :=
  let (allowed, checked) := assertAllowed T a x.context x.asked
  let after :=
    if allowed then
      match x.outcome with
      | .failed => recordFailure T checked x.context x.recorded
      | .succeeded => recordSuccess T checked x.context
      | .interrupted => checked
    else checked
  (⟨x, allowed, checked.pairFailures.size⟩, after)

/-- Attempts one after another. -/
def history (a : LoginAbuse) : List Attempt → List Record × LoginAbuse
  | [] => ([], a)
  | x :: xs =>
      let (r, a) := attend T a x
      let (rs, a) := history a xs
      (r :: rs, a)

/-- The identifier and the source of an attempt, as far as the service reads
them. -/
def pairOf (context : LoginAttemptContext) : String × String :=
  (normalize T context.identifier, slice context.source 256)

/-- A failure of the pair of `c` was recorded. -/
def Record.failureOf (c : LoginAttemptContext) (r : Record) : Bool :=
  r.allowed && decide (r.attempt.outcome = .failed) &&
    decide (pairOf T r.attempt.context = pairOf T c)

/-- A success for the identifier of `c` was recorded. -/
def Record.successFor (c : LoginAttemptContext) (r : Record) : Bool :=
  r.allowed && decide (r.attempt.outcome = .succeeded) &&
    decide (normalize T r.attempt.context.identifier = normalize T c.identifier)

/-- When the failures of the pair of `c` were recorded. -/
def failureTimes (c : LoginAttemptContext) (rs : List Record) : List Timestamp :=
  (rs.filter (Record.failureOf T c)).map fun r => r.attempt.recorded

/-- The times never go back. -/
def Chronological (xs : List Attempt) : Prop :=
  (xs.flatMap fun x => [x.asked, x.recorded]).Pairwise (· ≤ ·)

/-- `t` lies in the quarter of an hour from `x` on, its end excluded. -/
def inInterval (x t : Timestamp) : Bool := decide (x ≤ t ∧ t < x + failureWindowMs)

/-- A failure at `now`, in the window that is open or in a new one. -/
def counted (previous : Option FailureEntry) (now : Timestamp) : FailureEntry :=
  let entry :=
    match previous with
    | some previous =>
        if now - previous.firstFailureAt < failureWindowMs then previous else ⟨0, now, now⟩
    | none => ⟨0, now, now⟩
  ⟨entry.failures + 1, entry.firstFailureAt, now⟩

/-- The last of the counting windows into which failures at `times` fall: a
window is open for fifteen minutes from its first failure. -/
def countingWindow (times : List Timestamp) : Option FailureEntry :=
  times.foldl (fun w now => some (counted w now)) none

/-! ## §2. Keys. -/

section Keys

variable {T}

/-- Two texts with a zero byte behind them: one begins the other exactly where
they are the same. -/
theorem eq_of_zero_isPrefix {i j rest : List Char} (hi : '\x00' ∉ i) (hj : '\x00' ∉ j)
    (h : j ++ ['\x00'] <+: i ++ '\x00' :: rest) : j = i := by
  induction j generalizing i with
  | nil =>
      cases i with
      | nil => rfl
      | cons c i =>
          simp only [List.nil_append, List.cons_append, List.cons_prefix_cons] at h
          exact absurd (h.1 ▸ List.mem_cons_self) hi
  | cons d j ih =>
      cases i with
      | nil =>
          simp only [List.nil_append, List.cons_append, List.cons_prefix_cons] at h
          exact absurd (h.1 ▸ List.mem_cons_self) hj
      | cons c i =>
          simp only [List.cons_append, List.cons_prefix_cons] at h
          obtain ⟨rfl, h⟩ := h
          rw [ih (fun hc => hi (List.mem_cons_of_mem _ hc))
            (fun hc => hj (List.mem_cons_of_mem _ hc)) h]

theorem toList_pairKey (c : LoginAttemptContext) :
    (pairKey T c).toList = (normalize T c.identifier).toList ++
      '\x00' :: (T.sha256 (slice c.source 256)).toList := by
  simp [pairKey]

/-- `recordSuccess` finds exactly the pairs of its identifier. -/
theorem startsWith_pairKey {c d : LoginAttemptContext}
    (hc : '\x00' ∉ (normalize T c.identifier).toList)
    (hd : '\x00' ∉ (normalize T d.identifier).toList) :
    (pairKey T c).startsWith (normalize T d.identifier ++ "\x00") = true ↔
      normalize T d.identifier = normalize T c.identifier := by
  rw [String.startsWith_string_iff, toList_pairKey, String.toList_append]
  constructor
  · intro h
    exact String.toList_inj.mp (eq_of_zero_isPrefix hc hd h)
  · intro h
    rw [h]
    exact ⟨(T.sha256 (slice c.source 256)).toList, by simp⟩

/-- Keys tell the pairs apart. -/
theorem pairKey_inj (hsha : Function.Injective T.sha256) {c d : LoginAttemptContext}
    (hc : '\x00' ∉ (normalize T c.identifier).toList)
    (hd : '\x00' ∉ (normalize T d.identifier).toList) :
    pairKey T d = pairKey T c ↔ pairOf T d = pairOf T c := by
  unfold pairOf
  constructor
  · intro h
    have hlists := congrArg String.toList h
    rw [toList_pairKey, toList_pairKey] at hlists
    have hname : (normalize T d.identifier).toList = (normalize T c.identifier).toList :=
      eq_of_zero_isPrefix hc hd
        ⟨(T.sha256 (slice d.source 256)).toList, by rw [← hlists]; simp⟩
    rw [hname] at hlists
    have hsource := List.append_cancel_left hlists
    rw [Prod.mk.injEq]
    exact ⟨String.toList_inj.mp hname,
      hsha (String.toList_inj.mp (List.cons_injective hsource))⟩
  · intro h
    obtain ⟨hname, hsource⟩ := Prod.mk.inj h
    unfold pairKey
    rw [hname, hsource]

end Keys

/-! ## §3. The entry of one pair. -/

/-- The entry of the pair of `c`. -/
def view (c : LoginAttemptContext) (a : LoginAbuse) : Option FailureEntry :=
  a.pairFailures.find (pairKey T c)

/-- What `prune` leaves of an entry. -/
def fresh (now : Timestamp) (v : Option FailureEntry) : Option FailureEntry :=
  v.filter fun e => decide (now - e.lastFailureAt < failureWindowMs)

section View

variable {T}

theorem find_pruned (now : Timestamp) (entries : OrderedMap String FailureEntry) (key : String) :
    (pruned now entries).find key = fresh now (entries.find key) := by
  unfold pruned fresh
  rw [OrderedMap.find_remove]
  congr 1
  funext e
  rw [← decide_not]
  exact decide_eq_decide.mpr Nat.not_le

theorem bump_eq (entries : OrderedMap String FailureEntry) (key : String) (now : Timestamp)
    (maxEntries : Nat) :
    bump entries key now maxEntries =
      (entries.set key (counted (entries.find key) now)).shrink maxEntries := rfl

/-- A map that is not full loses no key to a new one. -/
theorem find_bump_of_lt {entries : OrderedMap String FailureEntry} {maxEntries : Nat}
    (h : entries.size < maxEntries) (key j : String) (now : Timestamp) :
    (bump entries key now maxEntries).find j =
      if key = j then some (counted (entries.find key) now) else entries.find j := by
  have hsize := OrderedMap.size_set_le entries key (counted (entries.find key) now)
  rw [bump_eq, OrderedMap.shrink_of_size_le (by omega), OrderedMap.find_set]

/-- What is in the map after a bump. -/
theorem find_bump (entries : OrderedMap String FailureEntry) {maxEntries : Nat} {key j : String}
    {now : Timestamp} {e : FailureEntry} (h : (bump entries key now maxEntries).find j = some e) :
    (if key = j then some (counted (entries.find key) now) else entries.find j) = some e := by
  rw [bump_eq] at h
  rw [← OrderedMap.find_set]
  exact OrderedMap.find_of_find_shrink h

theorem view_assertAllowed (c d : LoginAttemptContext) (a : LoginAbuse) (now : Timestamp) :
    view T c (assertAllowed T a d now).2 = fresh now (view T c a) :=
  find_pruned now a.pairFailures _

/-- An attempt is let through where its own entry is not full. -/
theorem allowed_iff (d : LoginAttemptContext) (a : LoginAbuse) (now : Timestamp) :
    (assertAllowed T a d now).1 = true ↔
      ∀ e, fresh now (view T d a) = some e → e.failures < pairFailureLimit := by
  show (!((pruned now a.pairFailures).find (pairKey T d)).any _) = true ↔ _
  rw [find_pruned]
  show (!(fresh now (view T d a)).any _) = true ↔ _
  cases fresh now (view T d a) with
  | none => simp
  | some e => simp

/-- The entry after a failure, its own or another's. -/
theorem view_recordFailure_cases {c d : LoginAttemptContext} {a : LoginAbuse} {now : Timestamp}
    {e : FailureEntry} (h : view T c (recordFailure T a d now) = some e) :
    (pairKey T d = pairKey T c ∧ e = counted (fresh now (view T c a)) now) ∨
      fresh now (view T c a) = some e := by
  have hfind := find_bump (pruned now a.pairFailures) h
  rw [find_pruned, find_pruned] at hfind
  split at hfind
  next hkey =>
    left
    rw [hkey] at hfind
    exact ⟨hkey, (Option.some.inj hfind).symm⟩
  next =>
    right
    exact hfind

/-- A failure that finds the map not full. -/
theorem view_recordFailure (hsha : Function.Injective T.sha256) {c d : LoginAttemptContext}
    (hc : '\x00' ∉ (normalize T c.identifier).toList)
    (hd : '\x00' ∉ (normalize T d.identifier).toList) {a : LoginAbuse} (now : Timestamp)
    (hsize : a.pairFailures.size < maxPairEntries) :
    view T c (recordFailure T a d now) =
      if pairOf T d = pairOf T c then some (counted (fresh now (view T c a)) now)
      else fresh now (view T c a) := by
  have hpruned : (pruned now a.pairFailures).size < maxPairEntries :=
    Nat.lt_of_le_of_lt (OrderedMap.size_remove_le _ _) hsize
  show (bump (pruned now a.pairFailures) (pairKey T d) now maxPairEntries).find (pairKey T c) = _
  rw [find_bump_of_lt hpruned, find_pruned, find_pruned]
  by_cases hpair : pairOf T d = pairOf T c
  · have hkey := (pairKey_inj hsha hc hd).mpr hpair
    rw [if_pos hkey, if_pos hpair, hkey]
    rfl
  · rw [if_neg fun hkey => hpair ((pairKey_inj hsha hc hd).mp hkey), if_neg hpair]
    rfl

/-- A success clears the pairs of its identifier and no other. -/
theorem view_recordSuccess {c d : LoginAttemptContext}
    (hc : '\x00' ∉ (normalize T c.identifier).toList)
    (hd : '\x00' ∉ (normalize T d.identifier).toList) (a : LoginAbuse) :
    view T c (recordSuccess T a d) =
      if normalize T d.identifier = normalize T c.identifier then none else view T c a := by
  show (OrderedMap.find (a.pairFailures.remove _) (pairKey T c)) = _
  rw [OrderedMap.find_remove]
  dsimp only
  by_cases hsame : normalize T d.identifier = normalize T c.identifier
  · rw [if_pos hsame, (startsWith_pairKey hc hd).mpr hsame]
    cases OrderedMap.find a.pairFailures (pairKey T c) <;> rfl
  · have hother : (pairKey T c).startsWith (normalize T d.identifier ++ "\x00") = false :=
      Bool.eq_false_iff.mpr fun h => hsame ((startsWith_pairKey hc hd).mp h)
    rw [if_neg hsame, hother]
    show Option.filter _ (view T c a) = view T c a
    cases view T c a <;> rfl

/-- An entry in good order at `now`. -/
def Sound (now : Timestamp) (v : Option FailureEntry) : Prop :=
  ∀ e, v = some e → 1 ≤ e.failures ∧ e.failures ≤ pairFailureLimit ∧
    e.firstFailureAt ≤ e.lastFailureAt ∧ e.lastFailureAt ≤ now

theorem fresh_eq_some {now : Timestamp} {v : Option FailureEntry} {e : FailureEntry} :
    fresh now v = some e ↔ v = some e ∧ now - e.lastFailureAt < failureWindowMs := by
  unfold fresh
  rw [Option.filter_eq_some_iff, decide_eq_true_eq]

theorem Sound.fresh {now : Timestamp} {v : Option FailureEntry} (h : Sound now v)
    (later : Timestamp) : Sound now (fresh later v) :=
  fun e he => h e (fresh_eq_some.mp he).1

theorem Sound.later {now later : Timestamp} {v : Option FailureEntry} (h : Sound now v)
    (hle : now ≤ later) : Sound later v := by
  intro e he
  obtain ⟨hone, hfive, hspan, hlast⟩ := h e he
  exact ⟨hone, hfive, hspan, Nat.le_trans hlast hle⟩

/-- A failure that was let through leaves the entry in good order. -/
theorem Sound.counted {now : Timestamp} {v : Option FailureEntry} (h : Sound now v)
    (hallowed : ∀ e, v = some e → e.failures < pairFailureLimit) :
    Sound now (some (counted v now)) := by
  have hlimit : 1 ≤ pairFailureLimit := by decide
  intro e he
  cases he
  unfold LoginAbuse.counted
  cases v with
  | none => exact ⟨Nat.le_refl 1, hlimit, Nat.le_refl now, Nat.le_refl now⟩
  | some previous =>
      obtain ⟨-, -, hspan, hlast⟩ := h previous rfl
      have hfew := hallowed previous rfl
      dsimp only
      split
      next => exact ⟨Nat.le_add_left 1 _, hfew, Nat.le_trans hspan hlast, Nat.le_refl now⟩
      next => exact ⟨Nat.le_refl 1, hlimit, Nat.le_refl now, Nat.le_refl now⟩

/-! ## §4. What an attempt does to the entry. -/

/-- **Entries stay in good order**, whatever is evicted. -/
theorem sound_attend {c : LoginAttemptContext} {a : LoginAbuse} {x : Attempt} {now : Timestamp}
    (h : Sound now (view T c a)) (hasked : now ≤ x.asked) (hrecorded : x.asked ≤ x.recorded) :
    Sound x.recorded (view T c (attend T a x).2) := by
  have hchecked : Sound x.recorded (view T c (assertAllowed T a x.context x.asked).2) := by
    rw [view_assertAllowed]
    exact (h.fresh _).later (Nat.le_trans hasked hrecorded)
  unfold attend
  dsimp only
  split
  next hallowed =>
    split
    next =>
      intro e he
      rcases view_recordFailure_cases he with ⟨hkey, rfl⟩ | hfresh
      · -- the entry of the attempt itself, which was not full
        refine Sound.counted (hchecked.fresh _) (fun previous hprevious => ?_) _ rfl
        have hview := (fresh_eq_some.mp hprevious).1
        rw [view_assertAllowed] at hview
        refine (allowed_iff x.context a x.asked).mp hallowed previous ?_
        unfold view at hview ⊢
        rw [hkey]
        exact hview
      · exact hchecked.fresh _ e hfresh
    next =>
      intro e he
      unfold view recordSuccess at he
      rw [OrderedMap.find_remove] at he
      exact hchecked e (Option.filter_eq_some_iff.mp he).1
    next => exact hchecked
  next => exact hchecked

theorem failureOf_attend {c : LoginAttemptContext} {a : LoginAbuse} {x : Attempt} :
    (attend T a x).1.failureOf T c = true ↔ (assertAllowed T a x.context x.asked).1 = true ∧
      x.outcome = .failed ∧ pairOf T x.context = pairOf T c := by
  show (_ && decide (x.outcome = .failed) && decide (pairOf T x.context = pairOf T c)) = true ↔ _
  rw [Bool.and_eq_true, Bool.and_eq_true, decide_eq_true_eq, decide_eq_true_eq, and_assoc]
  rfl

theorem successFor_attend {c : LoginAttemptContext} {a : LoginAbuse} {x : Attempt} :
    (attend T a x).1.successFor T c = true ↔ (assertAllowed T a x.context x.asked).1 = true ∧
      x.outcome = .succeeded ∧ normalize T x.context.identifier = normalize T c.identifier := by
  show (_ && decide (x.outcome = .succeeded) &&
    decide (normalize T x.context.identifier = normalize T c.identifier)) = true ↔ _
  rw [Bool.and_eq_true, Bool.and_eq_true, decide_eq_true_eq, decide_eq_true_eq, and_assoc]
  rfl

/-- A failure of the pair, in a map that is not full. -/
theorem attend_failure (hsha : Function.Injective T.sha256) {c : LoginAttemptContext}
    {a : LoginAbuse} {x : Attempt} (hc : '\x00' ∉ (normalize T c.identifier).toList)
    (hx : '\x00' ∉ (normalize T x.context.identifier).toList)
    (hfailure : (attend T a x).1.failureOf T c = true)
    (hroom : (attend T a x).1.tracked < maxPairEntries) :
    (∀ e, fresh x.asked (view T c a) = some e → e.failures < pairFailureLimit) ∧
      view T c (attend T a x).2 =
        some (counted (fresh x.recorded (fresh x.asked (view T c a))) x.recorded) := by
  obtain ⟨hallowed, hfailed, hpair⟩ := failureOf_attend.mp hfailure
  have hkey := (pairKey_inj hsha hc hx).mpr hpair
  constructor
  · have hview : view T x.context a = view T c a := by
      unfold view
      rw [hkey]
    rw [← hview]
    exact (allowed_iff x.context a x.asked).mp hallowed
  · unfold attend
    dsimp only
    rw [if_pos hallowed, hfailed]
    have hview := view_recordFailure hsha hc hx x.recorded hroom
    rw [if_pos hpair] at hview
    exact hview.trans (by rw [← view_assertAllowed c x.context a x.asked]; rfl)

/-- Anything else, where no success of the identifier is recorded. -/
theorem attend_other (hsha : Function.Injective T.sha256) {c : LoginAttemptContext}
    {a : LoginAbuse} {x : Attempt} (hc : '\x00' ∉ (normalize T c.identifier).toList)
    (hx : '\x00' ∉ (normalize T x.context.identifier).toList)
    (hother : (attend T a x).1.failureOf T c = false)
    (hsuccess : (attend T a x).1.successFor T c = false)
    (hroom : (attend T a x).1.tracked < maxPairEntries) :
    view T c (attend T a x).2 = fresh x.asked (view T c a) ∨
      view T c (attend T a x).2 = fresh x.recorded (fresh x.asked (view T c a)) := by
  unfold attend
  dsimp only
  split
  next hallowed =>
    split
    next hfailed =>
      right
      have hpair : pairOf T x.context ≠ pairOf T c := fun hpair =>
        Bool.false_ne_true (hother.symm.trans (failureOf_attend.mpr ⟨hallowed, hfailed, hpair⟩))
      have hview := view_recordFailure hsha hc hx x.recorded hroom
      rw [if_neg hpair] at hview
      exact hview.trans (by rw [← view_assertAllowed c x.context a x.asked]; rfl)
    next hsucceeded =>
      left
      have hname : normalize T x.context.identifier ≠ normalize T c.identifier := fun hname =>
        Bool.false_ne_true
          (hsuccess.symm.trans (successFor_attend.mpr ⟨hallowed, hsucceeded, hname⟩))
      rw [view_recordSuccess hc hx, if_neg hname, view_assertAllowed]
    next =>
      left
      exact view_assertAllowed ..
  next =>
    left
    exact view_assertAllowed ..

/-! ## §5. The maps stay small. -/

end View

/-- A call of the service. -/
inductive Call where
  | assertAllowed (context : LoginAttemptContext) (now : Timestamp)
  | recordFailure (context : LoginAttemptContext) (now : Timestamp)
  | recordSuccess (context : LoginAttemptContext)

/-- The maps after a call. -/
def call (a : LoginAbuse) : Call → LoginAbuse
  | .assertAllowed context now => (assertAllowed T a context now).2
  | .recordFailure context now => recordFailure T a context now
  | .recordSuccess context => recordSuccess T a context

/-- Both maps are within their bounds. -/
def Bounded (a : LoginAbuse) : Prop :=
  a.pairFailures.size ≤ maxPairEntries ∧ a.accountFailures.size ≤ maxAccountEntries

theorem bounded_call {a : LoginAbuse} (h : Bounded a) (k : Call) : Bounded (call T a k) := by
  cases k with
  | assertAllowed context now =>
      exact ⟨Nat.le_trans (OrderedMap.size_remove_le _ _) h.1,
        Nat.le_trans (OrderedMap.size_remove_le _ _) h.2⟩
  | recordFailure context now =>
      exact ⟨OrderedMap.size_shrink_le _ _, OrderedMap.size_shrink_le _ _⟩
  | recordSuccess context =>
      exact ⟨Nat.le_trans (OrderedMap.size_remove_le _ _) h.1,
        Nat.le_trans (OrderedMap.size_remove_le _ _) h.2⟩

theorem bounded_calls (calls : List Call) : Bounded (calls.foldl (call T) empty) := by
  have hrun : ∀ a, Bounded a → Bounded (calls.foldl (call T) a) := by
    induction calls with
    | nil => exact fun a h => h
    | cons k calls ih => exact fun a h => ih _ (bounded_call T h k)
  exact hrun empty ⟨Nat.zero_le _, Nat.zero_le _⟩

/-! ## §6. Failures in an interval. -/

/-- `n` failures of the pair since `x`, as its entry tells: a window opened
before `x` holds an earlier one; a window opened since then may follow on three
of the one before. -/
def Within (x : Nat) (n : Nat) : Option FailureEntry → Prop
  | none => n = 0
  | some e => (e.firstFailureAt < x → n + 1 ≤ e.failures) ∧
      (x ≤ e.firstFailureAt → n ≤ e.failures + 3) ∧ (0 < n → x ≤ e.lastFailureAt)

/-- The attempts come after `now`. -/
def Later (now : Timestamp) : List Attempt → Prop
  | [] => True
  | x :: xs => now ≤ x.asked ∧ x.asked ≤ x.recorded ∧ Later x.recorded xs

theorem Chronological.later {xs : List Attempt} (h : Chronological xs) : Later 0 xs := by
  have hfrom : ∀ now, (∀ x ∈ xs, now ≤ x.asked) → Later now xs := by
    unfold Chronological at h
    induction xs with
    | nil => exact fun _ _ => trivial
    | cons x xs ih =>
        intro now hnow
        simp only [List.flatMap_cons, List.cons_append, List.nil_append, List.pairwise_cons] at h
        obtain ⟨hasked, hrecorded, hrest⟩ := h
        refine ⟨hnow x List.mem_cons_self, hasked _ List.mem_cons_self, ih hrest _ fun y hy => ?_⟩
        exact hrecorded y.asked (List.mem_flatMap.mpr ⟨y, hy, List.mem_cons_self⟩)
  exact hfrom 0 fun _ _ => Nat.zero_le _

section Interval

variable {T}

/-- Pruning inside the interval loses no entry with a failure in it. -/
theorem Within.fresh {x n now : Nat} {v : Option FailureEntry} (h : Within x n v)
    (hnow : now < x + failureWindowMs) : Within x n (fresh now v) := by
  cases v with
  | none => exact h
  | some e =>
      obtain ⟨hbefore, hsince, hlast⟩ := h
      have hstale : ∀ last : Nat, (0 < n → x ≤ last) → ¬ now - last < failureWindowMs → n = 0 := by
        intro last hn hold
        have hwindow : 0 < failureWindowMs := by decide
        by_contra hne
        have := hn (by omega)
        omega
      unfold LoginAbuse.fresh
      rw [Option.filter_some]
      split
      next => exact ⟨hbefore, hsince, hlast⟩
      next hold => exact hstale e.lastFailureAt hlast (by simpa using hold)

/-- One more failure inside the interval. -/
theorem Within.counted {x n now : Nat} {v : Option FailureEntry} (h : Within x n v)
    (hallowed : ∀ e, v = some e → e.failures < pairFailureLimit) (hx : x ≤ now)
    (hnow : now < x + failureWindowMs) : Within x (n + 1) (some (counted v now)) := by
  have hopened : n ≤ 3 → Within x (n + 1) (some ⟨1, now, now⟩) := by
    intro hn
    refine ⟨fun hlt => absurd hx (Nat.not_le.mpr hlt), fun _ => ?_, fun _ => hx⟩
    show n + 1 ≤ 1 + 3
    omega
  cases v with
  | none =>
      have hzero : n = 0 := h
      exact hopened (by omega)
  | some e =>
      obtain ⟨hbefore, hsince, -⟩ := h
      have hfew := hallowed e rfl
      have hlimit : pairFailureLimit = 5 := rfl
      unfold LoginAbuse.counted
      dsimp only
      split
      next =>
        refine ⟨fun hlt => ?_, fun hle => ?_, fun _ => hx⟩
        · exact Nat.succ_le_succ (hbefore hlt)
        · have := hsince hle
          show n + 1 ≤ e.failures + 1 + 3
          omega
      next hclosed =>
        -- a window opened inside the interval does not close before its end
        refine hopened ?_
        have hearlier : ∀ first : Nat, ¬ now - first < failureWindowMs → first < x := by
          intro first hold
          omega
        have := hbefore (hearlier e.firstFailureAt hclosed)
        omega

theorem Within.le {x n : Nat} {now : Timestamp} {v : Option FailureEntry} (h : Within x n v)
    (hsound : Sound now v) : n ≤ 8 := by
  cases v with
  | none =>
      have hzero : n = 0 := h
      omega
  | some e =>
      obtain ⟨hbefore, hsince, -⟩ := h
      have hfive : e.failures ≤ 5 := (hsound e rfl).2.1
      by_cases hlt : e.firstFailureAt < x
      · have := hbefore hlt
        omega
      · have := hsince (Nat.not_lt.mp hlt)
        omega

/-- Before the interval there is nothing to count. -/
theorem Sound.within {x : Nat} {now : Timestamp} {v : Option FailureEntry} (h : Sound now v) :
    Within x 0 v := by
  cases v with
  | none => rfl
  | some e =>
      refine ⟨fun _ => (h e rfl).1, fun _ => Nat.zero_le _, fun hpos => ?_⟩
      cases hpos

/-- **One attempt inside the interval.** -/
theorem Within.attend (hsha : Function.Injective T.sha256) {c : LoginAttemptContext}
    {a : LoginAbuse} {y : Attempt} {x n : Nat} (hc : '\x00' ∉ (normalize T c.identifier).toList)
    (hy : '\x00' ∉ (normalize T y.context.identifier).toList) (h : Within x n (view T c a))
    (htimes : y.asked ≤ y.recorded) (hx : x ≤ y.recorded)
    (hinside : y.recorded < x + failureWindowMs)
    (hsuccess : (attend T a y).1.successFor T c = false)
    (hroom : (attend T a y).1.tracked < maxPairEntries) :
    Within x (n + if (attend T a y).1.failureOf T c then 1 else 0)
      (view T c (attend T a y).2) := by
  have hasked : Within x n (LoginAbuse.fresh y.asked (view T c a)) :=
    h.fresh (Nat.lt_of_le_of_lt htimes hinside)
  split
  next hfailure =>
    obtain ⟨hfew, hview⟩ := attend_failure hsha hc hy hfailure hroom
    rw [hview]
    refine Within.counted (hasked.fresh hinside) (fun e he => ?_) hx hinside
    exact hfew e (fresh_eq_some.mp he).1
  next hother =>
    rcases attend_other hsha hc hy (Bool.eq_false_iff.mpr hother) hsuccess hroom with hview | hview
    · rw [hview]
      exact hasked
    · rw [hview]
      exact hasked.fresh hinside

theorem history_cons (a : LoginAbuse) (y : Attempt) (ys : List Attempt) :
    history T a (y :: ys) = ((attend T a y).1 :: (history T (attend T a y).2 ys).1,
      (history T (attend T a y).2 ys).2) := rfl

theorem failureTimes_cons (c : LoginAttemptContext) (a : LoginAbuse) (y : Attempt)
    (ys : List Attempt) :
    failureTimes T c (history T a (y :: ys)).1 =
      (if (attend T a y).1.failureOf T c then [y.recorded] else []) ++
        failureTimes T c (history T (attend T a y).2 ys).1 := by
  rw [history_cons]
  unfold failureTimes
  rw [List.filter_cons]
  split <;> rfl

/-- A single failure counts where it falls into the interval. -/
theorem countP_single (b : Bool) (x t : Timestamp) :
    (if b then [t] else []).countP (inInterval x) = if b && inInterval x t then 1 else 0 := by
  cases b <;> cases ht : inInterval x t <;> simp [ht]

/-- Attempts after the interval do not count. -/
theorem countP_after {c : LoginAttemptContext} {x : Nat} (xs : List Attempt) :
    ∀ {a : LoginAbuse} {now : Timestamp}, Later now xs → x + failureWindowMs ≤ now →
      (failureTimes T c (history T a xs).1).countP (inInterval x) = 0 := by
  induction xs with
  | nil => exact fun _ _ => rfl
  | cons y ys ih =>
      intro a now hlater hafter
      obtain ⟨hasked, hrecorded, hrest⟩ := hlater
      have hafter' : x + failureWindowMs ≤ y.recorded :=
        Nat.le_trans hafter (Nat.le_trans hasked hrecorded)
      have hout : inInterval x y.recorded = false := decide_eq_false fun hin =>
        absurd hin.2 (Nat.not_lt.mpr hafter')
      rw [failureTimes_cons, List.countP_append, countP_single, hout, Bool.and_false,
        ih hrest hafter']
      rfl

/-- **At most eight**, by induction on the attempts still to come; `n` failures
of the interval lie behind. -/
theorem failures_within (hsha : Function.Injective T.sha256) {c : LoginAttemptContext}
    (hc : '\x00' ∉ (normalize T c.identifier).toList) (x : Nat) (xs : List Attempt) :
    ∀ {a : LoginAbuse} {now : Timestamp} {n : Nat}, Later now xs →
      (∀ y ∈ xs, '\x00' ∉ (normalize T y.context.identifier).toList) →
      Sound now (view T c a) → (now < x → n = 0) → Within x n (view T c a) →
      (∀ r ∈ (history T a xs).1, inInterval x r.attempt.recorded = true →
        r.successFor T c = false ∧ r.tracked < maxPairEntries) →
      n + (failureTimes T c (history T a xs).1).countP (inInterval x) ≤ 8 := by
  induction xs with
  | nil =>
      intro a now n _ _ hsound _ hwithin _
      exact hwithin.le hsound
  | cons y ys ih =>
      intro a now n hlater hplain hsound hbefore hwithin hquiet
      obtain ⟨hasked, hrecorded, hrest⟩ := hlater
      have hsound' := sound_attend hsound hasked hrecorded
      have hplain' := fun z hz => hplain z (List.mem_cons_of_mem _ hz)
      have hquiet' := fun r hr => hquiet r (List.mem_cons_of_mem _ hr)
      rw [failureTimes_cons, List.countP_append, countP_single]
      by_cases hinside : y.recorded < x + failureWindowMs
      · by_cases hx : x ≤ y.recorded
        · -- inside: the entry keeps the count
          have hin : inInterval x y.recorded = true := decide_eq_true ⟨hx, hinside⟩
          obtain ⟨hsuccess, hroom⟩ := hquiet _ List.mem_cons_self hin
          have hwithin' := hwithin.attend hsha hc (hplain y List.mem_cons_self) hrecorded hx
            hinside hsuccess hroom
          have htail := ih hrest hplain' hsound' (fun hlt => absurd hx (Nat.not_le.mpr hlt))
            hwithin' hquiet'
          rw [hin, Bool.and_true]
          omega
        · -- before: nothing to count yet
          have hout : inInterval x y.recorded = false := decide_eq_false fun hin => hx hin.1
          have hzero : n = 0 := hbefore
            (Nat.lt_of_le_of_lt (Nat.le_trans hasked hrecorded) (Nat.not_le.mp hx))
          have htail := ih (n := 0) hrest hplain' hsound' (fun _ => rfl) hsound'.within hquiet'
          rw [hout, Bool.and_false, if_neg Bool.false_ne_true]
          omega
      · -- after: the rest does not count
        have hout : inInterval x y.recorded = false := decide_eq_false fun hin => hinside hin.2
        rw [hout, Bool.and_false, if_neg Bool.false_ne_true,
          countP_after ys hrest (Nat.not_lt.mp hinside)]
        exact hwithin.le hsound

end Interval

/-! ## §7. Counting windows. -/

/-- A window ends when its last failure is recorded, not later than `now`. -/
def Ordered (now : Timestamp) (m : Option FailureEntry) : Prop :=
  ∀ e, m = some e → e.firstFailureAt ≤ e.lastFailureAt ∧ e.lastFailureAt ≤ now

section Windows

variable {T}

/-- What is stale stays stale. -/
theorem fresh_fresh {now later : Timestamp} (h : now ≤ later) (v : Option FailureEntry) :
    fresh later (fresh now v) = fresh later v := by
  cases v with
  | none => rfl
  | some e =>
      have hmono : ∀ last : Nat, later - last < failureWindowMs → now - last < failureWindowMs :=
        fun last hlt => Nat.lt_of_le_of_lt (Nat.sub_le_sub_right h last) hlt
      unfold fresh
      by_cases hlater : later - e.lastFailureAt < failureWindowMs
      · simp [Option.filter_some, hlater, hmono _ hlater]
      · by_cases hnow : now - e.lastFailureAt < failureWindowMs <;>
          simp [Option.filter_some, hlater, hnow]

/-- A failure opens a new window whether the stale entry is there or not. -/
theorem counted_fresh {now : Timestamp} {m : Option FailureEntry} (h : Ordered now m) :
    counted (fresh now m) now = counted m now := by
  cases m with
  | none => rfl
  | some e =>
      obtain ⟨hspan, -⟩ := h e rfl
      by_cases hlast : now - e.lastFailureAt < failureWindowMs
      · rw [show fresh now (some e) = some e from fresh_eq_some.mpr ⟨rfl, hlast⟩]
      · have hfirst : ¬ now - e.firstFailureAt < failureWindowMs := fun hlt =>
          hlast (Nat.lt_of_le_of_lt (Nat.sub_le_sub_left hspan now) hlt)
        have hstale : fresh now (some e) = none := by
          unfold fresh
          simp [Option.filter_some, hlast]
        rw [hstale]
        unfold counted
        simp only [if_neg hfirst]

theorem Ordered.later {now later : Timestamp} {m : Option FailureEntry} (h : Ordered now m)
    (hle : now ≤ later) : Ordered later m :=
  fun e he => ⟨(h e he).1, Nat.le_trans (h e he).2 hle⟩

theorem Ordered.counted {now : Timestamp} {m : Option FailureEntry} (h : Ordered now m) :
    Ordered now (some (counted m now)) := by
  intro e he
  cases he
  unfold LoginAbuse.counted
  cases m with
  | none => exact ⟨Nat.le_refl now, Nat.le_refl now⟩
  | some previous =>
      obtain ⟨hspan, hlast⟩ := h previous rfl
      dsimp only
      split
      next => exact ⟨Nat.le_trans hspan hlast, Nat.le_refl now⟩
      next => exact ⟨Nat.le_refl now, Nat.le_refl now⟩

/-- **Locked out**, by induction on the attempts before the last; `m` is the
window that the failures so far have left. -/
theorem rejected_in_window (hsha : Function.Injective T.sha256) {c : LoginAttemptContext}
    (hc : '\x00' ∉ (normalize T c.identifier).toList) {y : Attempt}
    (hpair : pairOf T y.context = pairOf T c) {w : FailureEntry}
    (hfull : pairFailureLimit ≤ w.failures) (hsoon : y.asked < w.lastFailureAt + failureWindowMs)
    (hy : '\x00' ∉ (normalize T y.context.identifier).toList) (xs : List Attempt) :
    ∀ {a : LoginAbuse} {now : Timestamp} {m : Option FailureEntry}, Later now (xs ++ [y]) →
      (∀ z ∈ xs, '\x00' ∉ (normalize T z.context.identifier).toList) → Ordered now m →
      fresh now (view T c a) = fresh now m →
      (∀ r ∈ (history T a xs).1, r.successFor T c = false ∧ r.tracked < maxPairEntries) →
      (failureTimes T c (history T a xs).1).foldl (fun w now => some (counted w now)) m = some w →
      (attend T (history T a xs).2 y).1.allowed = false := by
  induction xs with
  | nil =>
      intro a now m hlater _ _ hagree _ hwindow
      have hm : m = some w := hwindow
      have hview : view T y.context a = view T c a := by
        unfold view
        rw [(pairKey_inj hsha hc hy).mpr hpair]
      have hyoung : ∀ now last : Nat, now < last + failureWindowMs →
          now - last < failureWindowMs := by
        intro now last hlt
        have hwindow : 0 < failureWindowMs := by decide
        omega
      have hentry : fresh y.asked (view T y.context a) = some w := by
        rw [hview, ← fresh_fresh hlater.1, hagree, fresh_fresh hlater.1, hm]
        exact fresh_eq_some.mpr ⟨rfl, hyoung _ _ hsoon⟩
      show (assertAllowed T a y.context y.asked).1 = false
      rw [Bool.eq_false_iff]
      intro hallowed
      exact absurd hfull (Nat.not_le.mpr ((allowed_iff y.context a y.asked).mp hallowed w hentry))
  | cons x xs ih =>
      intro a now m hlater hplain hordered hagree hquiet hwindow
      rw [history_cons] at hquiet ⊢
      obtain ⟨hasked, hrecorded, hrest⟩ := hlater
      have hplain' := fun z hz => hplain z (List.mem_cons_of_mem _ hz)
      have hquiet' := fun r hr => hquiet r (List.mem_cons_of_mem _ hr)
      obtain ⟨hsuccess, hroom⟩ := hquiet _ List.mem_cons_self
      have hle : now ≤ x.recorded := Nat.le_trans hasked hrecorded
      have hagree' : fresh x.recorded (view T c a) = fresh x.recorded m := by
        rw [← fresh_fresh hle, hagree, fresh_fresh hle]
      rw [failureTimes_cons, List.foldl_append] at hwindow
      by_cases hfailure : (attend T a x).1.failureOf T c = true
      · rw [if_pos hfailure] at hwindow
        obtain ⟨-, hview⟩ := attend_failure hsha hc (hplain x List.mem_cons_self) hfailure hroom
        rw [fresh_fresh hrecorded, hagree', counted_fresh (hordered.later hle)] at hview
        exact ih hrest hplain' (hordered.later hle).counted (by rw [hview]) hquiet' hwindow
      · rw [if_neg hfailure] at hwindow
        have hview : fresh x.recorded (view T c (attend T a x).2) = fresh x.recorded m := by
          rw [← hagree']
          rcases attend_other hsha hc (hplain x List.mem_cons_self)
            (Bool.eq_false_iff.mpr hfailure) hsuccess hroom with hview | hview
          · rw [hview, fresh_fresh hrecorded]
          · rw [hview, fresh_fresh (Nat.le_refl _), fresh_fresh hrecorded]
        exact ih hrest hplain' (hordered.later hle) hview hquiet' hwindow

theorem mem_takeUnits {c : Char} (cs : List Char) :
    ∀ {n : Nat}, c ∈ takeUnits n cs → c ∈ cs := by
  induction cs with
  | nil => exact fun h => h
  | cons d cs ih =>
      intro n h
      unfold takeUnits at h
      split at h
      next =>
        rcases List.mem_cons.mp h with rfl | h
        · exact List.mem_cons_self
        · exact List.mem_cons_of_mem _ (ih h)
      next => cases h

/-- Normalising brings in no zero byte. -/
theorem normalize_plain (htrim : ∀ s, '\x00' ∉ s.toList → '\x00' ∉ (T.trim s).toList)
    (hlower : ∀ s, '\x00' ∉ s.toList → '\x00' ∉ (T.toLowerCase s).toList) {s : String}
    (h : '\x00' ∉ s.toList) : '\x00' ∉ (normalize T s).toList := by
  unfold normalize slice
  rw [String.toList_ofList]
  exact fun hmem => hlower _ (htrim _ h) (mem_takeUnits _ hmem)

end Windows

/-! ## §8. The bounds. -/

/-- **Login throttling.**  Where SHA-256 tells sources apart and no identifier
holds a zero byte: after any calls the maps are within their bounds; in any
interval of fifteen minutes in which fewer than 20000 pairs are tracked and the
identifier has no success, at most eight failures of a pair are recorded; and
once five failures fall into one counting window, its attempts are rejected
until fifteen minutes after the last of them. -/
theorem login_throttled (hsha : Function.Injective T.sha256)
    (htrim : ∀ s, '\x00' ∉ s.toList → '\x00' ∉ (T.trim s).toList)
    (hlower : ∀ s, '\x00' ∉ s.toList → '\x00' ∉ (T.toLowerCase s).toList) :
    (∀ calls : List Call, Bounded (calls.foldl (call T) empty)) ∧
    ∀ c : LoginAttemptContext, '\x00' ∉ c.identifier.toList →
      (∀ (xs : List Attempt), Chronological xs →
        (∀ y ∈ xs, '\x00' ∉ y.context.identifier.toList) → ∀ x,
        (∀ r ∈ (history T empty xs).1, inInterval x r.attempt.recorded = true →
          r.successFor T c = false ∧ r.tracked < maxPairEntries) →
        (failureTimes T c (history T empty xs).1).countP (inInterval x) ≤ 8) ∧
      ∀ (before since : List Attempt) (y : Attempt), Chronological (before ++ (since ++ [y])) →
        (∀ z ∈ before ++ (since ++ [y]), '\x00' ∉ z.context.identifier.toList) →
        ∀ a, a = (history T empty before).2 → view T c a = none →
        (∀ r ∈ (history T a since).1, r.successFor T c = false ∧ r.tracked < maxPairEntries) →
        ∀ w, countingWindow (failureTimes T c (history T a since).1) = some w →
        5 ≤ w.failures → pairOf T y.context = pairOf T c →
        y.asked < w.lastFailureAt + failureWindowMs →
        (attend T (history T a since).2 y).1.allowed = false := by
  have hplain : ∀ {s : String}, '\x00' ∉ s.toList → '\x00' ∉ (normalize T s).toList :=
    normalize_plain htrim hlower
  refine ⟨bounded_calls T, fun c hc => ⟨?_, ?_⟩⟩
  · intro xs htimes hxs x hquiet
    have hnone : Sound 0 (view T c empty) := fun e he => by cases he
    have hcount := failures_within (n := 0) hsha (hplain hc) x xs htimes.later
      (fun y hy => hplain (hxs y hy)) hnone (fun _ => rfl) rfl hquiet
    omega
  · intro before since y htimes hall a _ hnone hquiet w hwindow hfive hpair hsoon
    have htail : Chronological (since ++ [y]) := by
      unfold Chronological at htimes ⊢
      rw [List.flatMap_append] at htimes
      exact (List.pairwise_append.mp htimes).2.1
    have hmem : ∀ z ∈ since ++ [y], '\x00' ∉ (normalize T z.context.identifier).toList :=
      fun z hz => hplain (hall z (List.mem_append_right _ hz))
    refine rejected_in_window (m := none) hsha (hplain hc) hpair hfive hsoon
      (hmem y (by simp)) since htail.later (fun z hz => hmem z (List.mem_append_left _ hz))
      (fun e he => nomatch he) ?_ hquiet hwindow
    rw [hnone]

/-- Text as it is, SHA-256 on one source. -/
def plainText : Text where
  sha256 := Equiv.swap "198.51.100.10"
    "562ae54e815169e4b68b8396ffb6989b3fc1abee6415d60a51bcf866a8c8b0f5"
  trim := id
  toLowerCase := id

/-- A wrong password for `player`, at `now`. -/
def wrongPassword (now : Timestamp) : Attempt := ⟨⟨"player", "198.51.100.10"⟩, now, .failed, now⟩

/-- Five wrong passwords, and the sixth attempt a quarter of an hour after the
first. -/
theorem sixthAttempt_rejected :
    (attend plainText (history plainText empty [wrongPassword 0, wrongPassword 1000,
      wrongPassword 2000, wrongPassword 3000, wrongPassword 4000]).2
        (wrongPassword 900000)).1.allowed = false := by
  refine ((login_throttled plainText (Equiv.injective _) (fun _ h => h) fun _ h => h).2
    ⟨"player", "198.51.100.10"⟩ (by decide)).2 [] [wrongPassword 0, wrongPassword 1000,
      wrongPassword 2000, wrongPassword 3000, wrongPassword 4000] (wrongPassword 900000)
    ?_ ?_ empty rfl rfl ?_ ⟨5, 0, 4000⟩ ?_ (by decide) rfl (by decide)
  · unfold Chronological
    decide
  · decide
  · decide +kernel
  · decide +kernel

end LoginAbuse

end MinePanel.Accounts
