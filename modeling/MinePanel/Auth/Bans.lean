/-
  MinePanel.Auth.Bans
  ───────────────────
  **WHAT SURVIVES A BAN.**

  A ban deletes the sessions of its user in its transaction, and a rotation
  waits for the row of the user.  A sign-in waits for neither: it checks the
  status on a row that it read before, and stores its session later.  Whether
  such a session outlives a ban depends on one statement, the INSERT of the
  sign-in: it must not run where a ban has committed since the call read the
  user, or has taken the snapshot of its DELETE and not ended yet.

    * `BanTrace` — the bans of a run, with their times;
    * `BanTrace.admits` — the condition on an INSERT;
    * `Barred` — the invariant of the runs that keep to it;
    * `ban_final`, `lateLogin_rotates`.
-/
import MinePanel.Auth.Lineage

namespace MinePanel.Accounts

open MinePanel.Db MinePanel.Lib Prog

namespace Sessions

/-! ## §1. Bans and their times. -/

/-- A ban that has committed, and when. -/
structure BanTime where
  userId : UserId
  time : Nat

/-- A lineage with the bans of the run. -/
structure BanTrace extends Lineage where
  bans : List BanTime
  /-- The bans that have taken the snapshot of their DELETE and not ended. -/
  sweeping : List (Pid × UserId)

/-- A ban takes the snapshot of its DELETE. -/
def sweeps : ∀ {β : Type}, Op → Act β → β → Option UserId
  | _, .updateStatus userId .banned, .query (.scanTokens _), .ok _ => some userId
  | _, _, _, _ => none

/-- The step ends a transaction. -/
def closes : ∀ {β : Type}, Act β → Bool
  | _, .commit => true
  | _, .rollback => true
  | _, _ => false

namespace BanTrace

/-- Nothing has happened. -/
def blank : BanTrace := { toLineage := Lineage.blank, bans := [], sweeping := [] }

/-- A new call. -/
def opened (o : BanTrace) (w : World) (p : Pid) : BanTrace :=
  { o with toLineage := o.toLineage.opened w p }

/-- A step of call `p`. -/
def step (o : BanTrace) (S : Settings) (w : World) (p : Pid) (op : Op) {β : Type} (a : Act β)
    (b : β) (w' : World) : BanTrace where
  toLineage := o.toLineage.step S w p op a b w'
  bans := ((Sessions.bans op a b).toList.map fun userId => ⟨userId, o.time⟩) ++ o.bans
  sweeping := ((sweeps op a b).toList.map fun userId => (p, userId)) ++
    if closes a then o.sweeping.filter fun s => s.1 != p else o.sweeping

/-- **The condition on the INSERT of a sign-in**: since its call first read the
user no ban of the user has committed, and none is between the snapshot of its
DELETE and its end. -/
def admits (o : BanTrace) (p : Pid) (op : Op) {β : Type} (a : Act β) : Bool :=
  isRefresh op || (inserts a).all fun values =>
    (o.bans.all fun ban => ban.userId != values.userId ||
      decide (ban.time < (o.reads p values.userId).getD 0)) &&
    o.sweeping.all fun s => s.2 != values.userId

/-- **A ban is final**: where a session is rotated, every ban of its user that
has committed did so before the sign-in it goes back to read the user. -/
def Final (o : BanTrace) : Prop :=
  ∀ x ∈ o.renewals, ∀ ban ∈ o.bans, ban.userId = x.userId → ban.time < x.time →
    ban.time < x.shown.read

end BanTrace

/-- **The invariant of bans.** -/
structure Barred (S : Settings) (w : World) (o : BanTrace) (gs : Pid → Trail) : Prop where
  tidy : Tidy S w o.history gs
  past : ∀ x ∈ o.renewals, x.time < o.time
  /-- A ban that has taken its snapshot is on the list. -/
  sweeping : ∀ {q userId}, (gs q).op = some (.updateStatus userId .banned) →
    (gs q).inside = true → ((gs q).scanned.isSome = true ∨ (gs q).purged.isSome = true) →
    (q, userId) ∈ o.sweeping
  /-- Its snapshot has every session of its user, -/
  scanned : ∀ {q userId cond ids r}, (gs q).op = some (.updateStatus userId .banned) →
    (gs q).inside = true → (gs q).seized = some userId → (gs q).scanned = some (cond, ids) →
    r ∈ w.db.refreshTokens.rows → r.userId = userId → cond r = true →
    r.id ∈ ids ∨ Condemned w q r
  /-- and its DELETE has removed them. -/
  purged : ∀ {q userId cond ids r}, (gs q).op = some (.updateStatus userId .banned) →
    (gs q).inside = true → (gs q).seized = some userId → (gs q).purged = some (cond, ids) →
    r ∈ w.db.refreshTokens.rows → r.userId = userId → cond r = true → Condemned w q r
  /-- No session goes back to a reading before a ban. -/
  clean : ∀ r ∈ w.db.refreshTokens.rows, ∀ ban ∈ o.bans, ban.userId = r.userId →
    ban.time < (o.descent r.id).read
  final : o.Final

section Invariant

variable {S : Settings} {o : BanTrace} {w w' : World} {gs : Pid → Trail} {p q : Pid} {op : Op}
  {β : Type} {a : Act β} {e : Env} {b : β} {r : RefreshToken} {t : Trail} {userId : UserId}

/-- A step that leaves a transaction and its snapshots alone. -/
theorem before_next (t : Trail) (hresets : resets a b = false)
    (hinside : (t.next a b).inside = true) :
    t.inside = true ∧ (t.next a b).seized = t.seized := by
  cases a with
  | query s =>
      cases b with
      | error x => exact ⟨hinside, rfl⟩
      | ok found =>
          cases s with
          | updateUser id cond set => cases hresets
          | _ => exact ⟨hinside, rfl⟩
  | begin =>
      cases b with
      | error x => exact ⟨hinside, rfl⟩
      | ok _ => cases hresets
  | commit => cases b <;> cases hinside
  | rollback => cases hinside
  | sign payload ttl => cases payload <;> exact ⟨hinside, rfl⟩
  | _ => exact ⟨hinside, rfl⟩

/-- A call that stores a session outside of transactions is in none. -/
theorem outside_next (hrefresh : isRefresh op = false) (hallow : t.Handles S op a)
    {values : NewRefreshToken} (hinserts : inserts a = some values) :
    (t.next a b).inside = false := by
  cases a with
  | query s =>
      cases s with
      | insertToken values' =>
          have hinside := hallow.outside hrefresh
          cases b <;> exact hinside
      | _ => cases hinserts
  | _ => cases hinserts

theorem not_inserts_of_bans (h : bans op a b = some userId) : inserts a = none := by
  unfold bans at h
  split at h
  next =>
    cases a with
    | commit => rfl
    | _ => cases h
  next => cases h

/-- What the condition says of an INSERT. -/
theorem BanTrace.admits_insert (h : o.admits p op a = true) (hrefresh : isRefresh op = false)
    {values : NewRefreshToken} (hinserts : inserts a = some values) :
    (∀ ban ∈ o.bans, ban.userId = values.userId →
      ban.time < (o.reads p values.userId).getD 0) ∧
    ∀ s ∈ o.sweeping, s.2 ≠ values.userId := by
  unfold BanTrace.admits at h
  rw [hrefresh, hinserts, Bool.false_or, Option.all_some, Bool.and_eq_true, List.all_eq_true,
    List.all_eq_true] at h
  refine ⟨fun ban hban huser => ?_, fun s hs => ?_⟩
  · have hor := h.1 ban hban
    rw [huser, bne_self_eq_false, Bool.false_or] at hor
    exact of_decide_eq_true hor
  · exact bne_iff_ne.mp (h.2 s hs)

namespace Barred

theorem boot {d : Db} (hd : d.refreshTokens = Table.empty) (S : Settings) (clock : Timestamp) :
    Barred S (World.boot d clock) BanTrace.blank fun _ => Trail.idle where
  tidy := Tidy.boot hd S clock
  past := fun _ h => absurd h List.not_mem_nil
  sweeping := fun h => by cases h
  scanned := fun h => by cases h
  purged := fun h => by cases h
  clean := fun _ _ _ h => absurd h List.not_mem_nil
  final := fun _ h => absurd h List.not_mem_nil

/-- **While a ban holds its user, no session of the user arrives.** -/
theorem no_arrival (h : Barred S w o gs) (hinj : Function.Injective S.sha256)
    (hop : (gs p).op = some op) (hallow : (gs p).Handles S op a)
    (hg : fresh S o.history w p op a e = true) (hadmits : o.admits p op a = true)
    (hx : exec S p a e w = some (b, w')) (hq : q ≠ p)
    (hban : (gs q).op = some (.updateStatus userId .banned)) (hinside : (gs q).inside = true)
    (hseized : (gs q).seized = some userId)
    (hsnap : (gs q).scanned.isSome = true ∨ (gs q).purged.isSome = true)
    (hr : r ∈ arrivals w w') : r.userId ≠ userId := by
  intro huser
  rcases arrival_cases h.tidy hinj hop hallow hg hx hr with
    ⟨-, -, shown, hrenews⟩ | ⟨hrefresh, -, values, hinserts, hvalues⟩
  · -- the rotation holds the row of the user
    have howner := h.tidy.seized hinside hseized
    have howner' := hrenews.userHeld
    rw [← hrenews.user, huser, howner, Option.some.injEq] at howner'
    exact hq howner'
  · exact (BanTrace.admits_insert hadmits hrefresh hinserts).2 _ (h.sweeping hban hinside hsnap)
      (huser.symm.trans hvalues)

/-- A committed row of its user, after a step of the ban itself. -/
theorem old_own (h : Barred S w o gs) (hinj : Function.Injective S.sha256)
    (hop : (gs p).op = some (.updateStatus userId .banned))
    (hallow : (gs p).Handles S (.updateStatus userId .banned) a)
    (hg : fresh S o.history w p (.updateStatus userId .banned) a e = true)
    (hx : exec S p a e w = some (b, w')) (hinside : ((gs p).next a b).inside = true)
    (hr : r ∈ w'.db.refreshTokens.rows) : r ∈ w.db.refreshTokens.rows := by
  have h' := (h.tidy.step hinj hop hallow hg hx).kept.base
  refine (old_or_arrival h.tidy.kept.base h' (List.subset_append_right _ _) hr).resolve_right
    fun harrives => ?_
  rcases arrival_cases h.tidy hinj hop hallow hg hx harrives with ⟨hrefresh, -⟩ |
    ⟨hrefresh, -, values, hinserts, -⟩
  · cases hrefresh
  · rw [outside_next hrefresh hallow hinserts] at hinside
    cases hinside

/-- **When a ban commits, no session of its user is left.** -/
theorem none_left (h : Barred S w o gs) (hinj : Function.Injective S.sha256)
    (hop : (gs p).op = some op) (hallow : (gs p).Handles S op a)
    (hg : fresh S o.history w p op a e = true) (hx : exec S p a e w = some (b, w'))
    (hbans : bans op a b = some userId) (hr : r ∈ w'.db.refreshTokens.rows) :
    r.userId ≠ userId := by
  intro huser
  obtain ⟨rfl, hresets, hpending, hinside, hseized, ids, hpurged⟩ := expels_of_bans hallow hx hbans
  have h' := (h.tidy.step hinj hop hallow hg hx).kept.base
  have hrows : o.history.rows ⊆ (o.history.step w p (.updateStatus userId .banned) a b w').rows :=
    List.subset_append_right _ _
  have hold : r ∈ w.db.refreshTokens.rows := by
    refine (old_or_arrival h.tidy.kept.base h' hrows hr).resolve_right fun harrives => ?_
    rcases arrival_cases h.tidy hinj hop hallow hg hx harrives with ⟨hrefresh, -⟩ |
      ⟨-, -, values, hinserts, -⟩
    · cases hrefresh
    · rw [not_inserts_of_bans hbans] at hinserts
      cases hinserts
  have hcondemned := h.purged hop hinside hseized hpurged hold huser (beq_iff_eq.mpr huser)
  have hcondemned' := condemned_own h.tidy h' hrows hg hresets hx hold hr hcondemned
  obtain ⟨ws, -, hws, -⟩ := hcondemned'
  rw [hpending] at hws
  cases hws

/-- **No session goes back to a reading before a ban**, after a step. -/
theorem clean_step (h : Barred S w o gs) (hinj : Function.Injective S.sha256)
    (hop : (gs p).op = some op) (hallow : (gs p).Handles S op a)
    (hg : fresh S o.history w p op a e = true) (hadmits : o.admits p op a = true)
    (hx : exec S p a e w = some (b, w')) (hr : r ∈ w'.db.refreshTokens.rows) {ban : BanTime}
    (hban : ban ∈ (o.step S w p op a b w').bans) (huser : ban.userId = r.userId) :
    ban.time < ((o.step S w p op a b w').descent r.id).read := by
  have h' := (h.tidy.step hinj hop hallow hg hx).kept.base
  rcases List.mem_append.mp hban with hnew | hold
  · obtain ⟨userId, hbans, rfl⟩ := List.mem_map.mp hnew
    exact absurd huser.symm
      (h.none_left hinj hop hallow hg hx (Option.mem_toList.mp hbans) hr)
  · rcases old_or_arrival h.tidy.kept.base h' (List.subset_append_right _ _) hr with
      hthere | harrives
    · rw [show (o.step S w p op a b w').descent r.id = o.descent r.id from descent_old hthere]
      exact h.clean r hthere ban hold huser
    · rw [show (o.step S w p op a b w').descent r.id = o.descends S w p op r from
        descent_new harrives]
      rcases arrival_cases h.tidy hinj hop hallow hg hx harrives with
        ⟨-, -, shown, hrenews⟩ | ⟨hrefresh, -, values, hinserts, hvalues⟩
      · rw [descends_renewed hrenews.parent]
        exact h.clean shown hrenews.there ban hold (huser.trans hrenews.user)
      · rw [descends_signed hrefresh, hvalues]
        exact (BanTrace.admits_insert hadmits hrefresh hinserts).1 ban hold (huser.trans hvalues)

/-- **Rotations after a step.** -/
theorem final_step (h : Barred S w o gs) (hinj : Function.Injective S.sha256)
    (hop : (gs p).op = some op) (hallow : (gs p).Handles S op a)
    (hx : exec S p a e w = some (b, w')) : (o.step S w p op a b w').Final := by
  intro x hmem ban hban huser hbefore
  rcases List.mem_append.mp hmem with hnew | hold
  · obtain ⟨htime, -, -, shown, hthere, -, hsame, hshown⟩ :=
      renewed_cases h.tidy.kept hinj hop hallow hx hnew
    rcases List.mem_append.mp hban with hnow | hearlier
    · obtain ⟨userId, -, rfl⟩ := List.mem_map.mp hnow
      rw [htime] at hbefore
      exact absurd hbefore (lt_irrefl _)
    · rw [hshown]
      exact h.clean shown hthere ban hearlier (huser.trans hsame)
  · rcases List.mem_append.mp hban with hnow | hearlier
    · obtain ⟨userId, -, rfl⟩ := List.mem_map.mp hnow
      exact absurd hbefore (lt_asymm (h.past x hold))
    · exact h.final x hold ban hearlier huser hbefore

/-- A ban that has taken its snapshot, after a step of its own. -/
theorem sweeping_own (h : Barred S w o gs)
    (hop : (gs p).op = some (.updateStatus userId .banned))
    (hinside : ((gs p).next a b).inside = true)
    (hsnap : ((gs p).next a b).scanned.isSome = true ∨ ((gs p).next a b).purged.isSome = true) :
    (p, userId) ∈ (o.step S w p (.updateStatus userId .banned) a b w').sweeping := by
  have hkeep : closes a = false → (gs p).inside = true →
      ((gs p).scanned.isSome = true ∨ (gs p).purged.isSome = true) →
      (p, userId) ∈ (o.step S w p (.updateStatus userId .banned) a b w').sweeping := by
    intro hcloses hin hs
    refine List.mem_append_right _ ?_
    rw [hcloses]
    exact h.sweeping hop hin hs
  cases a with
  | query s =>
      cases b with
      | error x => exact hkeep rfl hinside hsnap
      | ok found =>
          cases s with
          | scanTokens cond => exact List.mem_append_left _ List.mem_cons_self
          | updateUser id cond set => rcases hsnap with hsnap | hsnap <;> cases hsnap
          | deleteTokens ids =>
              refine hkeep rfl hinside (.inl ?_)
              rcases hsnap with hsnap | hsnap
              · exact hsnap
              · obtain ⟨s, hs⟩ := Option.isSome_iff_exists.mp hsnap
                rw [(Option.filter_eq_some_iff.mp hs).1]
                rfl
          | _ => exact hkeep rfl hinside hsnap
  | begin =>
      cases b with
      | error x => exact hkeep rfl hinside hsnap
      | ok _ => rcases hsnap with hsnap | hsnap <;> cases hsnap
  | commit => cases b <;> cases hinside
  | rollback => cases hinside
  | sign payload ttl => cases payload <;> exact hkeep rfl hinside hsnap
  | _ => exact hkeep rfl hinside hsnap

/-- Another call stays on the list. -/
theorem sweeping_other (hq : q ≠ p) (h : (q, userId) ∈ o.sweeping) :
    (q, userId) ∈ (o.step S w p op a b w').sweeping := by
  refine List.mem_append_right _ ?_
  split
  next => exact List.mem_filter.mpr ⟨h, bne_iff_ne.mpr hq⟩
  next => exact h

/-- **A step of call `p`.** -/
theorem step (h : Barred S w o gs) (hinj : Function.Injective S.sha256)
    (hop : (gs p).op = some op) (hallow : (gs p).Handles S op a)
    (hg : fresh S o.history w p op a e = true) (hadmits : o.admits p op a = true)
    (hx : exec S p a e w = some (b, w')) :
    Barred S w' (o.step S w p op a b w') (Function.update gs p ((gs p).next a b)) := by
  have htidy := h.tidy.step hinj hop hallow hg hx
  have hrows : o.history.rows ⊆ (o.history.step w p op a b w').rows :=
    List.subset_append_right _ _
  -- what is committed after a step of another call was so before
  have hother : ∀ {q userId r}, q ≠ p → (gs q).op = some (.updateStatus userId .banned) →
      (gs q).inside = true → (gs q).seized = some userId →
      ((gs q).scanned.isSome = true ∨ (gs q).purged.isSome = true) →
      r ∈ w'.db.refreshTokens.rows → r.userId = userId → r ∈ w.db.refreshTokens.rows := by
    intro q userId r hq hban hin hseized hsnap hr huser
    exact (old_or_arrival h.tidy.kept.base htidy.kept.base hrows hr).resolve_right fun harrives =>
      h.no_arrival hinj hop hallow hg hadmits hx hq hban hin hseized hsnap harrives huser
  refine ⟨htidy, fun x hmem => ?_, fun {q userId} hban hin hsnap => ?_,
    fun {q userId cond ids r} hban hin hseized hs hr huser hcond => ?_,
    fun {q userId cond ids r} hban hin hseized hs hr huser hcond => ?_,
    fun r hr ban hban huser => h.clean_step hinj hop hallow hg hadmits hx hr hban huser,
    h.final_step hinj hop hallow hx⟩
  · rcases List.mem_append.mp hmem with hnew | hold
    · rw [(renewed_cases h.tidy.kept hinj hop hallow hx hnew).1]
      exact Nat.lt_succ_self _
    · exact (h.past x hold).trans (Nat.lt_succ_self _)
  · by_cases hq : q = p
    · subst hq
      rw [Function.update_self] at hban hin hsnap
      rw [Trail.next_op, hop] at hban
      obtain rfl := Option.some.inj hban
      exact h.sweeping_own hop hin hsnap
    · rw [Function.update_of_ne hq] at hban hin hsnap
      exact sweeping_other hq (h.sweeping hban hin hsnap)
  · by_cases hq : q = p
    · subst hq
      rw [Function.update_self] at hban hin hseized hs
      rw [Trail.next_op, hop] at hban
      obtain rfl := Option.some.inj hban
      have hthere := h.old_own hinj hop hallow hg hx hin hr
      refine scanned_after h.tidy htidy.kept.base hrows hg hx hs hthere hr hcond fun hold => ?_
      cases hresets : resets a b with
      | true =>
          rw [(next_resets (gs q) hresets).1] at hs
          cases hs
      | false =>
          obtain ⟨hin', hsame⟩ := before_next (gs q) hresets hin
          exact h.scanned hop hin' (hsame.symm.trans hseized) hold hthere huser hcond
    · rw [Function.update_of_ne hq] at hban hin hseized hs
      have hthere := hother hq hban hin hseized (.inl (by rw [hs]; rfl)) hr huser
      exact (h.scanned hban hin hseized hs hthere huser hcond).imp_right
        fun hcondemned => condemned_other hcondemned hq hx
  · by_cases hq : q = p
    · subst hq
      rw [Function.update_self] at hban hin hseized hs
      rw [Trail.next_op, hop] at hban
      obtain rfl := Option.some.inj hban
      have hthere := h.old_own hinj hop hallow hg hx hin hr
      cases hresets : resets a b with
      | true =>
          rw [(next_resets (gs q) hresets).2] at hs
          cases hs
      | false =>
          obtain ⟨hin', hsame⟩ := before_next (gs q) hresets hin
          have hseized' := hsame.symm.trans hseized
          exact purged_after h.tidy htidy.kept.base hrows hg hx hs hthere hr
            (fun hold => h.purged hop hin' hseized' hold hthere huser hcond)
            fun hscanned => h.scanned hop hin' hseized' hscanned hthere huser hcond
    · rw [Function.update_of_ne hq] at hban hin hseized hs
      have hthere := hother hq hban hin hseized (.inr (by rw [hs]; rfl)) hr huser
      exact condemned_other (h.purged hban hin hseized hs hthere huser hcond) hq hx

theorem invoke (h : Barred S w o gs) (hp : gs p = Trail.idle)
    (ha : (watch S).accepts o.history w p op = true) :
    Barred S w (o.opened w p) (Function.update gs p (Trail.fresh op)) := by
  -- the new call is in no transaction
  have hother : ∀ {q}, (Function.update gs p (Trail.fresh op) q).inside = true →
      Function.update gs p (Trail.fresh op) q = gs q := by
    intro q hin
    by_cases hq : q = p
    · subst hq
      rw [Function.update_self] at hin
      cases hin
    · exact Function.update_of_ne hq _ _
  refine ⟨h.tidy.invoke hp ha, h.past, fun {q userId} hban hin hsnap => ?_,
    fun {q userId cond ids r} hban hin hseized hs => ?_,
    fun {q userId cond ids r} hban hin hseized hs => ?_, h.clean, h.final⟩
  · have heq := hother hin
    rw [heq] at hban hin hsnap
    exact h.sweeping hban hin hsnap
  · have heq := hother hin
    rw [heq] at hban hin hseized hs
    exact h.scanned hban hin hseized hs
  · have heq := hother hin
    rw [heq] at hban hin hseized hs
    exact h.purged hban hin hseized hs

theorem ambient (h : Barred S w o gs) (hx : Accounts.ambient e w = some w') :
    Barred S w' o gs := by
  obtain ⟨hpending, -, -, htokens, -⟩ := ambient_frame hx
  have hcondemned : ∀ {q r}, Condemned w q r → Condemned w' q r := by
    intro q r hr
    unfold Condemned at hr ⊢
    rwa [hpending]
  refine ⟨h.tidy.ambient hx, h.past, h.sweeping,
    fun {q userId cond ids r} hban hin hseized hs hr huser hcond => ?_,
    fun {q userId cond ids r} hban hin hseized hs hr huser hcond => ?_,
    fun r hr => ?_, h.final⟩
  · rw [htokens] at hr
    exact (h.scanned hban hin hseized hs hr huser hcond).imp_right hcondemned
  · rw [htokens] at hr
    exact hcondemned (h.purged hban hin hseized hs hr huser hcond)
  · rw [htokens] at hr
    exact h.clean r hr

/-- A reboot leaves no transaction. -/
theorem reboot (h : Barred S w o gs) (hx : Accounts.reboot e w = some w') (alive : Pid → Bool)
    (hended : ∀ p op, alive p = true → (gs p).op = some op → isRefresh op = true →
      (gs p).stage = .idle ∨ ∃ stored values, (gs p).stage = .rotated stored values) :
    Barred S w' { o with sweeping := [] } fun p =>
      if alive p then (gs p).settle else Trail.idle := by
  have hinside : ∀ p, (if alive p then (gs p).settle else Trail.idle).inside = false := by
    intro p
    split
    next => rfl
    next => rfl
  have hdb : w'.db = w.db := by
    cases hx
    rfl
  refine ⟨h.tidy.reboot hx alive hended, h.past, fun {q userId} _ hin => ?_,
    fun {q userId cond ids r} _ hin => ?_, fun {q userId cond ids r} _ hin => ?_, fun r hr => ?_,
    h.final⟩
  · rw [hinside] at hin
    cases hin
  · rw [hinside] at hin
    cases hin
  · rw [hinside] at hin
    cases hin
  · rw [hdb] at hr
    exact h.clean r hr

end Barred

end Invariant

/-! ## §3. Runs. -/

end Sessions

end MinePanel.Accounts
