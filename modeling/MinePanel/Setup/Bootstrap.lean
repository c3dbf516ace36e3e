/-
  MinePanel.Setup.Bootstrap
  ─────────────────────────
  **EXACTLY ONE FIRST ADMINISTRATOR.**

  Only `initAdminRegister` can set the setup flag, and it does so inside one
  transaction under an advisory lock: the flag is re-read as unset after the
  lock is there, and set in the same commit that stores the administrator.
  Nothing ever clears the flag.  So the flag is set exactly when one
  registration has committed, and the second to reach the lock reads it set.

  The property is proved in every interleaving of every account operation, with
  statement failures and process deaths anywhere.
-/
import MinePanel.Accounts.Steps

namespace MinePanel.Accounts

open MinePanel.Db MinePanel.Lib Prog

/-! ## §1. Writes that move the flag. -/

/-- The flag after a write. -/
def Write.flag (x : Write) (f : Option Bool) : Option Bool :=
  match x with
  | .insertSetup => some (f.getD false)
  | .completeSetup => f.map fun _ => true
  | _ => f

theorem apply_setupState (d : Db) (x : Write) : (d.apply x).setupState = x.flag d.setupState := by
  cases x <;> rfl

/-- The flag after several writes. -/
def flagAfter (ws : List Write) (f : Option Bool) : Option Bool :=
  ws.foldl (fun f x => x.flag f) f

theorem foldl_setupState (ws : List Write) (d : Db) :
    (ws.foldl Db.apply d).setupState = flagAfter ws d.setupState := by
  induction ws generalizing d with
  | nil => rfl
  | cons x ws ih =>
      show (ws.foldl Db.apply (d.apply x)).setupState = flagAfter ws (x.flag d.setupState)
      rw [ih, apply_setupState]

/-- A flag at least as far: there is no row, or the same, or it is set. -/
def FlagLe (f f' : Option Bool) : Prop := f = none ∨ f = f' ∨ f' = some true

/-- A write keeps two flags in order. -/
theorem FlagLe.write {f f' : Option Bool} (x : Write) (h : FlagLe f f') :
    FlagLe (x.flag f) (x.flag f') := by
  unfold FlagLe at h ⊢
  cases x with
  | insertSetup =>
      show some (f.getD false) = none ∨ some (f.getD false) = some (f'.getD false) ∨
        some (f'.getD false) = some true
      rcases h with rfl | rfl | rfl
      · cases f' with
        | none => simp
        | some b => cases b <;> simp
      · simp
      · simp
  | completeSetup =>
      show f.map (fun _ => true) = none ∨ f.map (fun _ => true) = f'.map (fun _ => true) ∨
        f'.map (fun _ => true) = some true
      rcases h with rfl | rfl | rfl <;> simp
  | _ => exact h

theorem FlagLe.writes {f f' : Option Bool} (ws : List Write) (h : FlagLe f f') :
    FlagLe (flagAfter ws f) (flagAfter ws f') := by
  induction ws generalizing f f' with
  | nil => exact h
  | cons x ws ih => exact ih (h.write x)

/-- No write clears the flag, or removes its row. -/
theorem flagAfter_true (ws : List Write) : flagAfter ws (some true) = some true := by
  induction ws with
  | nil => rfl
  | cons x ws ih =>
      have hx : x.flag (some true) = some true := by
        cases x <;> rfl
      show flagAfter ws (x.flag (some true)) = some true
      rw [hx, ih]

theorem flagAfter_isSome (ws : List Write) {f : Option Bool} (h : f.isSome = true) :
    (flagAfter ws f).isSome = true := by
  induction ws generalizing f with
  | nil => exact h
  | cons x ws ih =>
      refine ih ?_
      cases x with
      | insertSetup => rfl
      | completeSetup => simpa [Write.flag] using h
      | _ => exact h

/-- The flag has not moved, but its row may have appeared. -/
def SameFlag (d d' : Db) : Prop :=
  d'.setupState = d.setupState ∨ (d.setupState = none ∧ d'.setupState = some false)

theorem SameFlag.trans {d d' d'' : Db} (h : SameFlag d d') (h' : SameFlag d' d'') :
    SameFlag d d'' := by
  unfold SameFlag at *
  rcases h with h | ⟨hnone, hfalse⟩
  · rw [h] at h'
    exact h'
  · rcases h' with h' | ⟨hnone', -⟩
    · exact Or.inr ⟨hnone, h'.trans hfalse⟩
    · rw [hfalse] at hnone'
      cases hnone'

/-- Only `completeSetup` sets the flag. -/
theorem SameFlag.apply (d : Db) {x : Write} (h : Power.complete ∉ x.powers) :
    SameFlag d (d.apply x) := by
  cases x with
  | insertSetup =>
      show some (d.setupState.getD false) = d.setupState ∨
        (d.setupState = none ∧ some (d.setupState.getD false) = some false)
      cases d.setupState <;> simp
  | completeSetup => exact absurd List.mem_cons_self h
  | _ => exact Or.inl rfl

/-- The advisory lock protects the flag. -/
def flagTouches (x : Write) (k : Lock) : Prop :=
  k = .advisory setupLockKey ∧ Power.complete ∈ x.powers

theorem flag_protects :
    Store.Protects Db.apply flagTouches (.advisory setupLockKey) SameFlag :=
  ⟨fun _ => Or.inl rfl, SameFlag.trans, fun d _ hx => SameFlag.apply d fun h => hx ⟨rfl, h⟩⟩

theorem SameFlag.foldl {ws : List Write} (h : ∀ x ∈ ws, Power.complete ∉ x.powers) (d : Db) :
    SameFlag d (ws.foldl Db.apply d) :=
  flag_protects.foldl ws (fun x hx ht => h x hx ht.2) d

/-- What is unset stays unset. -/
theorem SameFlag.unset {d d' : Db} (h : SameFlag d d') :
    d'.setupState = some true ↔ d.setupState = some true := by
  rcases h with h | ⟨hnone, hfalse⟩
  · rw [h]
  · rw [hnone, hfalse]
    simp

/-- The flag of another call's view moves no further back. -/
theorem SameFlag.le {d d' : Db} (h : SameFlag d d') : FlagLe d.setupState d'.setupState := by
  rcases h with h | ⟨hnone, -⟩
  · exact Or.inr (Or.inl h.symm)
  · exact Or.inl hnone

/-- A change that leaves the users and the flag, but may create its row. -/
def Change.Unmoved (ch : Change) : Prop :=
  ch.after.users = ch.before.users ∧ SameFlag ch.before ch.after

namespace Bootstrap

/-! ## §2. The monitor. -/

/-- How far a registration has come. -/
inductive Phase where
  /-- No call. -/
  | idle
  /-- A call that has nothing to do with setup. -/
  | other
  /-- `getSetupState` or `onModuleInit`. -/
  | probing
  /-- A registration before its transaction, or after its rollback. -/
  | out
  | opened
  | locked
  /-- The flag was read as unset under the lock. -/
  | fresh
  /-- The flag is set, but not committed. -/
  | completed
  /-- Committed. -/
  | done
  deriving DecidableEq

namespace Phase

/-- Inside the transaction of a registration. -/
def isInside : Phase → Bool
  | .opened | .locked | .fresh | .completed => true
  | _ => false

/-- Holding the advisory lock. -/
def isLocked : Phase → Bool
  | .locked | .fresh | .completed => true
  | _ => false

/-- Holding the lock on an unset flag. -/
def isUnset : Phase → Bool
  | .fresh | .completed => true
  | _ => false

theorem inside_of_locked {m : Phase} (h : m.isLocked = true) : m.isInside = true := by
  cases m <;> first | rfl | exact h

theorem locked_of_unset {m : Phase} (h : m.isUnset = true) : m.isLocked = true := by
  cases m <;> first | rfl | exact h

theorem inside_ne {m : Phase} (h : m.isInside = true) :
    m ≠ .idle ∧ m ≠ .done ∧ m ≠ .other ∧ m ≠ .probing := by
  refine ⟨?_, ?_, ?_, ?_⟩ <;> rintro rfl <;> cases h

/-- What a call may write. -/
def Covers (m : Phase) (x : Write) : Prop :=
  match m with
  | .other => Power.complete ∉ x.powers
  | .probing => x.updates = none ∧ Power.account ∉ x.powers ∧ Power.complete ∉ x.powers
  | _ => True

/-- What a call may do next: the flag is set only where it was read as unset
under the lock, and a registration commits only with the flag. -/
def allow (m : Phase) : ∀ {β : Type}, Act β → Prop
  | _, .query s =>
      (m = .other ∧ Power.complete ∉ s.powers) ∨
      (m = .probing ∧ s.updates = none ∧ Power.account ∉ s.powers ∧ Power.complete ∉ s.powers) ∨
      (m.isInside = true ∧ (m = .fresh ∨ Power.complete ∉ s.powers))
  | _, .begin => m = .other ∨ m = .probing ∨ m = .out
  | _, .commit => m = .other ∨ m = .probing ∨ m = .completed
  | _, .rollback => m = .other ∨ m = .probing ∨ m.isInside = true
  | _, _ => m ≠ .idle ∧ m ≠ .done

/-- What a statement teaches. -/
def after (m : Phase) : ∀ {α : Type}, Stmt α → α → Phase
  | _, .advisoryLock key, _ =>
      match m with
      | .opened => if key = setupLockKey then .locked else .opened
      | m => m
  | _, .selectSetup, r =>
      match m with
      | .locked => if r = some false then .fresh else .locked
      | m => m
  | _, .completeSetup, _ =>
      match m with
      | .fresh => .completed
      | m => m
  | _, _, _ => m

/-- The phase after a step. -/
def next (m : Phase) : ∀ {β : Type}, Act β → β → Phase
  | _, .query s, b =>
      match b with
      | .ok r => m.after s r
      | .error _ => m
  | _, .begin, b =>
      match m, b with
      | .out, .ok _ => .opened
      | m, _ => m
  | _, .commit, b =>
      match m, b with
      | .completed, .ok _ => .done
      | .completed, .error _ => .out
      | m, _ => m
  | _, .rollback, _ => if m.isInside then .out else m
  | _, _, _ => m

end Phase

/-- The bootstrap token a step reads. -/
def tokenRead : ∀ {β : Type}, Act β → β → Option String → Option String
  | _, .bootstrapToken, b, _ => b
  | _, _, _, seen => seen

/-- A call: its operation, how far it has come and the token it has read. -/
structure Track where
  op : Option Op
  phase : Phase
  seen : Option String

/-- No call. -/
def Track.idle : Track := ⟨none, .idle, none⟩

/-- The monitor of every operation. -/
def monitor : Monitor Act Track where
  allow := fun m a => m.phase.allow a
  next := fun m a b m' => m' = ⟨m.op, m.phase.next a b, tokenRead a b m.seen⟩

/-! ## §3. Every operation follows the monitor. -/

/-- The registration of the first administrator. -/
def isRegistration : Op → Bool
  | .initAdminRegister _ _ _ _ => true
  | _ => false

/-- The operations of the setup service. -/
def isSetup : Op → Bool
  | .initAdminRegister _ _ _ _ => true
  | .getSetupState => true
  | .onModuleInit => true
  | _ => false

/-- The phase a call starts in. -/
def startPhase : Op → Phase
  | .initAdminRegister _ _ _ _ => .out
  | .getSetupState => .probing
  | .onModuleInit => .probing
  | _ => .other

/-- Where a call starts. -/
def start (op : Op) : Track := ⟨some op, startPhase op, none⟩

/-- The token a registration has to present. -/
def Expects (S : Settings) (op : Op) (seen : Option String) : Prop :=
  match op with
  | .initAdminRegister _ _ _ token => ∃ t, token = some t ∧ (configuredSetupToken S).or seen = some t
  | _ => True

/-- A registration that has returned has committed, and was shown the expected
token; any other call is where it started. -/
def Returned (S : Settings) (op : Op) (_ : Reply) (m : Track) : Prop :=
  m.op = some op ∧ m.phase = (if isRegistration op then .done else startPhase op) ∧
    Expects S op m.seen

/-- A call that has thrown is where it started. -/
def Thrown (op : Op) (_ : Exn) (m : Track) : Prop := m.op = some op ∧ m.phase = startPhase op

/-- What a track turns into at a step. -/
theorem next_eq {m m' : Track} {β : Type} {a : Act β} {b : β} (h : monitor.next m a b m') :
    m' = ⟨m.op, m.phase.next a b, tokenRead a b m.seen⟩ := h

section Calls

variable {α : Type} {Q : α → Track → Prop} {E : Exn → Track → Prop} {op : Op} {seen : Option String}

/-- A statement of a registration inside its transaction. -/
theorem wp_inside {s : Stmt α} {m : Phase} (hm : m.isInside = true)
    (hs : m = .fresh ∨ Power.complete ∉ s.powers) (hE : ∀ e, E e ⟨some op, m, seen⟩)
    (hQ : ∀ r, Q r ⟨some op, m.after s r, seen⟩) :
    wp monitor Q E (query s) ⟨some op, m, seen⟩ := by
  refine wp_query (Or.inr (Or.inr ⟨hm, hs⟩)) (fun r m' h => ?_) fun e m' h => ?_
  · rw [next_eq h]
    exact hQ r
  · rw [next_eq h]
    exact hE e

/-- The monitor does not notice a statement of a probe that leaves the flag and
the users. -/
theorem wp_probe {s : Stmt α} (hu : s.updates = none) (hs : s.powers ⊆ [Power.setup])
    (hE : ∀ e, E e ⟨some op, .probing, seen⟩) (hQ : ∀ r, Q r ⟨some op, .probing, seen⟩) :
    wp monitor Q E (query s) ⟨some op, .probing, seen⟩ := by
  have haccount : Power.account ∉ s.powers := fun h => by simpa using hs h
  have hcomplete : Power.complete ∉ s.powers := fun h => by simpa using hs h
  refine wp_query (Or.inr (Or.inl ⟨rfl, hu, haccount, hcomplete⟩)) (fun r m' h => ?_) fun e m' h => ?_
  · have hafter : Phase.probing.after s r = .probing := by
      cases s <;> rfl
    rw [next_eq h]
    show Q r ⟨some op, Phase.probing.after s r, seen⟩
    rw [hafter]
    exact hQ r
  · rw [next_eq h]
    exact hE e

/-- `createFirstAdmin`: it returns with the flag set and fails inside. -/
theorem createFirstAdmin_keeps (email username passwordHash : String) :
    wp monitor (fun _ m => m = ⟨some op, .completed, seen⟩)
      (fun _ m => m.op = some op ∧ m.phase.isInside = true)
      (createFirstAdmin email username passwordHash) ⟨some op, .opened, seen⟩ := by
  unfold createFirstAdmin
  refine wp_seq (wp_inside rfl (Or.inr (by simp [Stmt.powers])) (fun _ => ⟨rfl, rfl⟩) fun _ => ?_)
  show wp monitor _ _ _ ⟨some op, .locked, seen⟩
  refine wp_seq (wp_inside rfl (Or.inr (by simp [Stmt.powers])) (fun _ => ⟨rfl, rfl⟩) fun _ => ?_)
  refine wp_seq (wp_inside rfl (Or.inr (by simp [Stmt.powers])) (fun _ => ⟨rfl, rfl⟩) fun state => ?_)
  cases state with
  | none => exact ⟨rfl, rfl⟩
  | some initialAdminCreated =>
      cases initialAdminCreated with
      | true => exact ⟨rfl, rfl⟩
      | false =>
          -- the lock is held and the flag was read as unset
          show wp monitor _ _ _ ⟨some op, .fresh, seen⟩
          refine wp_seq (wp_inside rfl (Or.inl rfl) (fun _ => ⟨rfl, rfl⟩) fun user => ?_)
          exact wp_inside rfl (Or.inl rfl) (fun _ => ⟨rfl, rfl⟩) fun _ => rfl

/-- The transaction of a registration. -/
theorem registerTransaction_keeps {Q : Unit → Track → Prop} (email username passwordHash : String)
    (hop : startPhase op = .out) (hQ : Q () ⟨some op, .done, seen⟩) :
    wp monitor Q (Thrown op) (transaction (createFirstAdmin email username passwordHash))
      ⟨some op, .out, seen⟩ := by
  refine wp_transaction (R := fun _ m => m = ⟨some op, .completed, seen⟩)
    (F := fun _ m => m.op = some op ∧ m.phase.isInside = true)
    (Or.inr (Or.inr rfl)) (fun e m' h => ?_) (fun m' h => ?_) (fun r m hm => ?_) (fun e m hm => ?_)
  · rw [next_eq h]
    exact ⟨rfl, hop.symm⟩
  · rw [next_eq h]
    exact createFirstAdmin_keeps email username passwordHash
  · subst hm
    refine ⟨Or.inr (Or.inr rfl), fun m'' h => ?_, fun e m'' h => ?_⟩
    · rw [next_eq h]
      exact hQ
    · rw [next_eq h]
      exact ⟨rfl, hop.symm⟩
  · refine ⟨Or.inr (Or.inr hm.2), fun m'' h => ?_⟩
    rw [next_eq h]
    refine ⟨hm.1, ?_⟩
    show (if m.phase.isInside then Phase.out else m.phase) = startPhase op
    rw [if_pos hm.2, hop]

/-- A silent step of a registration before its transaction. -/
theorem wp_silent {a : Act α} (ha : a.isSilent = true)
    (hQ : ∀ b, Q b ⟨some op, .out, tokenRead a b seen⟩) :
    wp monitor Q E (perform a) ⟨some op, .out, seen⟩ := by
  have hallow : monitor.allow ⟨some op, .out, seen⟩ a := by
    cases a with
    | query s => cases ha
    | begin => cases ha
    | commit => cases ha
    | rollback => cases ha
    | _ => exact ⟨nofun, nofun⟩
  have hphase : ∀ b, Phase.out.next a b = .out := by
    intro b
    cases a with
    | query s => cases ha
    | begin => cases ha
    | commit => cases ha
    | rollback => cases ha
    | _ => rfl
  refine wp_perform hallow fun b m' h => ?_
  rw [next_eq h]
  show Q b ⟨some op, Phase.out.next a b, tokenRead a b seen⟩
  rw [hphase]
  exact hQ b

/-- `expectedSetupToken`: the configured token, or the one just read. -/
theorem expectedSetupToken_keeps (S : Settings) {Q : Option String → Track → Prop}
    (hQ : ∀ seen, Q ((configuredSetupToken S).or seen) ⟨some op, .out, seen⟩) :
    wp monitor Q E (expectedSetupToken S) ⟨some op, .out, none⟩ := by
  unfold expectedSetupToken
  cases hconf : configuredSetupToken S with
  | some configured =>
      have h := hQ none
      rw [hconf] at h
      exact h
  | none =>
      refine wp_silent rfl fun b => ?_
      have h := hQ b
      rw [hconf] at h
      exact h

/-- The token gate lets only the expected token through. -/
theorem expects_of_matches {S : Settings} (hinj : Function.Injective S.sha256)
    {expected supplied : Option String}
    (h : (expected.any fun e => (truthy supplied).any fun t => setupTokenMatches S t e) = true) :
    ∃ t, supplied = some t ∧ expected = some t := by
  unfold setupTokenMatches truthy at h
  cases expected with
  | none => simp at h
  | some e =>
      cases supplied with
      | none => simp at h
      | some t =>
          by_cases ht : t = ""
          · simp [Option.filter, ht] at h
          · have hsame : S.sha256 t = S.sha256 e := by simpa [Option.filter, ht] using h
            exact ⟨t, rfl, by rw [hinj hsame]⟩

/-- `initAdminRegister`. -/
theorem initAdminRegister_keeps {S : Settings} (hinj : Function.Injective S.sha256)
    (email username password : String) (setupToken : Option String) {Q : Unit → Track → Prop}
    (hop : startPhase op = .out)
    (hQ : ∀ seen, (∃ t, setupToken = some t ∧ (configuredSetupToken S).or seen = some t) →
      Q () ⟨some op, .done, seen⟩) :
    wp monitor Q (Thrown op) (initAdminRegister S email username password setupToken)
      ⟨some op, .out, none⟩ := by
  have hout : ∀ e seen, Thrown op e ⟨some op, .out, seen⟩ := fun _ _ => ⟨rfl, hop.symm⟩
  unfold initAdminRegister
  refine wp_seq (expectedSetupToken_keeps S fun seen => ?_)
  refine wp_guard (fun _ => hout _ _) fun hmatch => ?_
  have hexpects := expects_of_matches hinj (by simpa using hmatch)
  unfold assertPasswordWithinByteLimit
  refine wp_seq ?_
  split
  next =>
    refine wp_seq (wp_seq (wp_silent rfl fun salt => ?_))
    exact registerTransaction_keeps email username _ hop (hQ seen hexpects)
  next => exact hout _ _

/-- `getSetupState`. -/
theorem getSetupState_keeps {Q : SetupStatus → Track → Prop} {E : Exn → Track → Prop}
    (hE : ∀ e, E e ⟨some op, .probing, seen⟩) (hQ : ∀ r, Q r ⟨some op, .probing, seen⟩) :
    wp monitor Q E getSetupState ⟨some op, .probing, seen⟩ := by
  unfold getSetupState
  refine wp_seq (wp_probe rfl (by simp [Stmt.powers]) hE fun _ => ?_)
  refine wp_seq (wp_probe rfl (by simp [Stmt.powers]) hE fun state => ?_)
  cases state with
  | none => exact hE _
  | some _ => exact hQ _

/-- `onModuleInit`. -/
theorem onModuleInit_keeps (S : Settings) {Q : Unit → Track → Prop} {E : Exn → Track → Prop}
    (hE : ∀ e, E e ⟨some op, .probing, seen⟩) (hQ : ∀ r, Q r ⟨some op, .probing, seen⟩) :
    wp monitor Q E (onModuleInit S) ⟨some op, .probing, seen⟩ := by
  unfold onModuleInit
  split
  next => exact hQ ()
  refine wp_transaction (R := fun _ m => m = ⟨some op, .probing, seen⟩)
    (F := fun _ m => m = ⟨some op, .probing, seen⟩) (Or.inr (Or.inl rfl)) (fun e m' h => ?_)
    (fun m' h => ?_) (fun r m hm => ?_) (fun e m hm => ?_)
  · rw [next_eq h]
    exact hE e
  · rw [next_eq h]
    refine wp_seq (wp_probe rfl (by simp [Stmt.powers]) (fun _ => rfl) fun _ => ?_)
    refine wp_seq (wp_probe rfl (by simp [Stmt.powers]) (fun _ => rfl) fun state => ?_)
    show wp monitor _ _ (if state = some true then _ else _) _
    split
    next => rfl
    next => exact wp_perform ⟨by simp, by simp⟩ fun _ m' h => next_eq h
  · subst hm
    refine ⟨Or.inr (Or.inl rfl), fun m'' h => ?_, fun e m'' h => ?_⟩
    · rw [next_eq h]
      exact hQ r
    · rw [next_eq h]
      exact hE e
  · subst hm
    refine ⟨Or.inr (Or.inl rfl), fun m'' h => ?_⟩
    rw [next_eq h]
    exact hE e

end Calls

/-- The monitor does not notice an operation outside setup. -/
theorem ignores_other {ps : List Power} {op : Op} (hsetup : Power.setup ∉ ps)
    (hcomplete : Power.complete ∉ ps) :
    monitor.Ignores (fun _ a => a.powers ⊆ ps) ⟨some op, .other, none⟩ := by
  intro β a ha
  have hstay : ∀ b, (Phase.other.next a b) = .other := by
    intro b
    cases a with
    | query s =>
        cases b with
        | ok r => cases s <;> rfl
        | error e => rfl
    | _ => rfl
  have hseen : ∀ b, tokenRead a b none = none := by
    intro b
    cases a with
    | bootstrapToken => exact absurd (ha List.mem_cons_self) hsetup
    | _ => rfl
  refine ⟨?_, fun b m' h => ?_⟩
  · cases a with
    | query s => exact Or.inl ⟨rfl, fun hs => hcomplete (ha hs)⟩
    | begin => exact Or.inl rfl
    | commit => exact Or.inl rfl
    | rollback => exact Or.inl rfl
    | _ => exact ⟨nofun, nofun⟩
  · rw [next_eq h]
    show (⟨some op, Phase.other.next a b, tokenRead a b none⟩ : Track) = _
    rw [hstay, hseen]

/-- **Every operation follows the monitor.** -/
theorem body_keeps {S : Settings} (hinj : Function.Injective S.sha256) (op : Op) :
    wp monitor (Returned S op) (Thrown op) (body S op) (start op) := by
  have hmap : ∀ {α : Type} {p : Call α} {m : Track} (f : α → Reply),
      wp monitor (fun r => Returned S op (f r)) (Thrown op) p m →
      wp monitor (Returned S op) (Thrown op) (f <$> p) m := fun f h => wp_seq h
  have hother : startPhase op = .other → isRegistration op = false → Power.setup ∉ op.powers →
      Power.complete ∉ op.powers → (∀ seen, Expects S op seen) →
      wp monitor (Returned S op) (Thrown op) (body S op) (start op) := by
    intro hop hreg hsetup hcomplete hexpects
    have hstart : start op = ⟨some op, .other, none⟩ := by
      unfold start
      rw [hop]
    rw [hstart]
    refine wp_of_only (body_within S op) (ignores_other hsetup hcomplete) (fun _ => ?_)
      fun _ _ => ⟨rfl, hop.symm⟩
    refine ⟨rfl, ?_, hexpects none⟩
    rw [hreg]
    exact hop.symm
  cases op with
  | initAdminRegister email username password setupToken =>
      exact hmap _ (initAdminRegister_keeps hinj email username password setupToken rfl
        fun seen hexpects => ⟨rfl, rfl, hexpects⟩)
  | getSetupState =>
      exact hmap _ (getSetupState_keeps (fun _ => ⟨rfl, rfl⟩) fun _ => ⟨rfl, rfl, trivial⟩)
  | onModuleInit =>
      exact hmap _ (onModuleInit_keeps S (fun _ => ⟨rfl, rfl⟩) fun _ => ⟨rfl, rfl, trivial⟩)
  | _ => exact hother rfl rfl (by simp [Op.powers]) (by simp [Op.powers]) fun _ => trivial

/-! ## §4. The history and the invariant. -/

/-- What a run has shown: the operation of each call, what it has changed, and
the bootstrap token it has read. -/
structure Diary where
  invoked : Pid → Option Op
  changes : Ledger
  read : Pid → Option String

/-- Nothing has happened. -/
def Diary.blank : Diary := ⟨fun _ => none, Ledger.blank, fun _ => none⟩

/-- The step that reads `this.bootstrapToken`. -/
def readsToken : ∀ {β : Type}, Act β → Bool
  | _, .bootstrapToken => true
  | _, _ => false

/-- The diary after a step of `p`. -/
def Diary.step (o : Diary) (w : World) (p : Pid) {β : Type} (a : Act β) (w' : World) : Diary where
  invoked := o.invoked
  changes := o.changes.step w p w'
  read := if readsToken a then Function.update o.read p w.bootstrapToken else o.read

/-- Every interleaving, with its diary. -/
def diary : Watch Act World Env Op Diary where
  onInvoke := fun o _ p op =>
    { invoked := Function.update o.invoked p (some op)
      changes := o.changes.opened p
      read := Function.update o.read p none }
  onStep := fun o w p _ _ a _ w' => o.step w p a w'

/-- What a phase says about the world. -/
structure Holds (m : Phase) (w : World) (p : Pid) : Prop where
  writes : ∀ {ws}, w.tables.pending p = some ws → ∀ x ∈ ws, m.Covers x
  inside : m.isInside = true → (w.tables.pending p).isSome = true
  lock : m.isLocked = true → w.tables.owner (.advisory setupLockKey) = some p
  unset : m.isUnset = true → w.db.setupState ≠ some true
  row : m = .fresh → (w.view p).setupState.isSome = true
  set : m = .completed → (w.view p).setupState = some true
  vacant : m = .idle → w.tables.pending p = none

/-- The flag a call sees is at least as far where the committed one is. -/
theorem view_le {w w' : World} {q : Pid} (hpending : w'.tables.pending q = w.tables.pending q)
    (hsame : SameFlag w.db w'.db) : FlagLe (w.view q).setupState (w'.view q).setupState := by
  show FlagLe ((w.tables.view Db.apply q).setupState) ((w'.tables.view Db.apply q).setupState)
  cases hws : w.tables.pending q with
  | none =>
      rw [Store.view_of_none hws, Store.view_of_none (hpending.trans hws)]
      exact hsame.le
  | some ws =>
      rw [Store.view_of_some hws, Store.view_of_some (hpending.trans hws), foldl_setupState,
        foldl_setupState]
      exact hsame.le.writes ws

/-- A phase is carried over where its call's transaction and lock stay, and so
does the flag under the lock. -/
theorem Holds.transfer {m : Phase} {w w' : World} {q : Pid} (h : Holds m w q)
    (hpending : w'.tables.pending q = w.tables.pending q)
    (hlock : w.tables.owner (.advisory setupLockKey) = some q →
      w'.tables.owner (.advisory setupLockKey) = some q ∧ SameFlag w.db w'.db) :
    Holds m w' q := by
  refine ⟨fun hws => h.writes (hpending ▸ hws), fun hm => ?_, fun hm => (hlock (h.lock hm)).1,
    fun hm hset => ?_, fun hm => ?_, fun hm => ?_, fun hm => hpending.trans (h.vacant hm)⟩
  · rw [hpending]
    exact h.inside hm
  · have hlocked : m.isLocked = true := Phase.locked_of_unset hm
    exact h.unset hm ((hlock (h.lock hlocked)).2.unset.mp hset)
  · have hrow := h.row hm
    subst hm
    rcases view_le hpending (hlock (h.lock rfl)).2 with hle | hle | hle
    · rw [hle] at hrow
      cases hrow
    · rw [← hle]
      exact hrow
    · rw [hle]
      rfl
  · have hset := h.set hm
    subst hm
    rcases view_le hpending (hlock (h.lock rfl)).2 with hle | hle | hle
    · rw [hle] at hset
      cases hset
    · rw [← hle]
      exact hset
    · exact hle

/-- A phase outside a transaction promises nothing about it. -/
theorem Holds.outside {m : Phase} {w : World} {p : Pid} (hm : m.isInside = false)
    (hnone : w.tables.pending p = none) : Holds m w p := by
  refine ⟨fun hws => ?_, fun h => ?_, fun h => ?_, fun h => ?_, fun h => ?_, fun h => ?_,
    fun _ => hnone⟩
  · rw [hnone] at hws
    cases hws
  · rw [hm] at h
    cases h
  · rw [Phase.inside_of_locked h] at hm
    cases hm
  · rw [Phase.inside_of_locked (Phase.locked_of_unset h)] at hm
    cases hm
  · subst h
    cases hm
  · subst h
    cases hm

/-- The invariant of every run. -/
structure Booted (w : World) (o : Diary) (gs : Pid → Track) : Prop where
  sound : Store.Sound flagTouches w.tables
  holds : ∀ p, Holds (gs p).phase w p
  /-- The flag is set exactly when a registration has committed, -/
  flag : w.db.setupState = some true ↔ ∃ p, (gs p).phase = .done
  /-- and only one has. -/
  unique : ∀ {p q}, (gs p).phase = .done → (gs q).phase = .done → p = q
  seen : ∀ {p}, (gs p).phase ≠ .idle → o.invoked p = (gs p).op ∧ o.read p = (gs p).seen
  kind : ∀ {p op}, (gs p).phase = .other → (gs p).op = some op → isSetup op = false
  /-- A setup call that has not succeeded has changed neither users nor flag. -/
  quiet : ∀ {p op}, o.invoked p = some op → isSetup op = true → (gs p).phase ≠ .done →
    ∀ ch ∈ o.changes p, ch.Unmoved

/-! ## §5. Steps. -/

/-- A step that sets the flag is made in the fresh phase. -/
theorem fresh_of_complete {m : Phase} {β : Type} {a : Act β} (ha : m.allow a)
    (hc : Power.complete ∈ a.powers) : m = .fresh := by
  cases a with
  | query s =>
      rcases ha with ⟨-, hnot⟩ | ⟨-, -, -, hnot⟩ | ⟨-, hfresh | hnot⟩
      · exact absurd hc hnot
      · exact absurd hc hnot
      · exact hfresh
      · exact absurd hc hnot
  | sign payload ttl => cases payload <;> simp [Act.powers] at hc
  | _ => simp [Act.powers] at hc

/-- What is never allowed: an idle or a finished call. -/
theorem allow_alive {m : Phase} {β : Type} {a : Act β} (ha : m.allow a) :
    m ≠ .idle ∧ m ≠ .done := by
  cases a with
  | query s =>
      rcases ha with ⟨rfl, -⟩ | ⟨rfl, -⟩ | ⟨h, -⟩
      · exact ⟨nofun, nofun⟩
      · exact ⟨nofun, nofun⟩
      · exact ⟨(Phase.inside_ne h).1, (Phase.inside_ne h).2.1⟩
  | begin => rcases ha with rfl | rfl | rfl <;> simp
  | commit => rcases ha with rfl | rfl | rfl <;> simp
  | rollback =>
      rcases ha with rfl | rfl | h
      · exact ⟨nofun, nofun⟩
      · exact ⟨nofun, nofun⟩
      · exact ⟨(Phase.inside_ne h).1, (Phase.inside_ne h).2.1⟩
  | _ => exact ha

/-- The token a call has read is the one the diary has. -/
theorem read_step {S : Settings} {p : Pid} {β : Type} {a : Act β} {e : Env} {b : β} {w w' : World}
    {o : Diary} (hx : exec S p a e w = some (b, w')) :
    (o.step w p a w').read p = tokenRead a b (o.read p) := by
  cases a with
  | bootstrapToken =>
      cases hx
      exact Function.update_self ..
  | _ => rfl

theorem read_step_of_ne {p q : Pid} {β : Type} {a : Act β} {w w' : World} {o : Diary}
    (hq : q ≠ p) : (o.step w p a w').read q = o.read q := by
  show (if readsToken a then Function.update o.read p w.bootstrapToken else o.read) q = o.read q
  split
  next => exact Function.update_of_ne hq _ _
  next => rfl

section Steps

variable {S : Settings} {w w' : World} {o : Diary} {gs : Pid → Track} {p : Pid} {e : Env}

/-- An allowed step is a step under the advisory lock. -/
theorem allowed_step {m : Phase} {β : Type} {a : Act β} {b : β} (ha : m.allow a)
    (h : Holds m w p) (hx : exec S p a e w = some (b, w')) :
    Store.Step Db.apply flagTouches a.May p w.tables w'.tables :=
  (exec_step hx).retouch fun x hmay k hk => by
    have hfresh : m = .fresh := fresh_of_complete ha (hmay.1 hk.2)
    rw [hk.1]
    exact Or.inr (h.lock (by rw [hfresh]; rfl))

/-- A change that leaves users and flag, or none, is unmoved. -/
theorem unmoved_step {changes : Ledger}
    (hquiet : ∀ ch ∈ changes p, ch.Unmoved) (husers : w'.db.users = w.db.users)
    (hsame : SameFlag w.db w'.db) : ∀ ch ∈ changes.step w p w' p, ch.Unmoved := by
  unfold Ledger.step
  split
  next => exact hquiet
  next =>
    intro ch hch
    rw [Function.update_self, List.mem_append, List.mem_singleton] at hch
    rcases hch with hch | rfl
    · exact hquiet ch hch
    · exact ⟨husers, hsame⟩

/-- **Only `p` moves, and the flag does not**: it is left to say where `p` is
now. -/
theorem Booted.move {β : Type} {a : Act β} {b : β} {m : Phase} (h : Booted w o gs)
    (hallow : (gs p).phase.allow a) (hx : exec S p a e w = some (b, w'))
    (hsame : SameFlag w.db w'.db) (husers : (gs p).phase ≠ .other → w'.db.users = w.db.users)
    (hm : Holds m w' p) (hdone : m ≠ .done) (hkind : m = .other → (gs p).phase = .other) :
    Booted w' (o.step w p a w')
      (Function.update gs p ⟨(gs p).op, m, tokenRead a b (gs p).seen⟩) := by
  have hstep := allowed_step hallow (h.holds p) hx
  obtain ⟨hidle, hnot⟩ := allow_alive hallow
  have hothers : ∀ q, q ≠ p → Function.update gs p ⟨(gs p).op, m, tokenRead a b (gs p).seen⟩ q
      = gs q := fun q hq => Function.update_of_ne hq _ _
  -- neither the old nor the new phase of `p` is `done`
  have hdones : ∀ q, (Function.update gs p ⟨(gs p).op, m, tokenRead a b (gs p).seen⟩ q).phase
      = .done ↔ (gs q).phase = .done := by
    intro q
    by_cases hq : q = p
    · subst hq
      rw [Function.update_self]
      exact ⟨fun hd => absurd hd hdone, fun hd => absurd hd hnot⟩
    · rw [hothers q hq]
  refine ⟨hstep.sound h.sound, fun q => ?_, ?_, fun {q r} hq hr => ?_, fun {q} hq => ?_,
    fun {q op} hq hop => ?_, fun {q op} hinv hop hq => ?_⟩
  · by_cases hq : q = p
    · subst hq
      rw [Function.update_self]
      exact hm
    · rw [hothers q hq]
      exact (h.holds q).transfer (hstep.pending_of_ne hq) fun hk =>
        ⟨hstep.owner_of_ne hq hk, hsame⟩
  · rw [hsame.unset, h.flag]
    exact exists_congr fun q => (hdones q).symm
  · exact h.unique ((hdones q).mp hq) ((hdones r).mp hr)
  · by_cases hqp : q = p
    · subst hqp
      obtain ⟨hinv, hseen⟩ := h.seen hidle
      rw [Function.update_self, read_step hx, hseen]
      exact ⟨hinv, rfl⟩
    · rw [hothers q hqp] at hq ⊢
      rw [read_step_of_ne hqp]
      exact h.seen hq
  · by_cases hqp : q = p
    · subst hqp
      rw [Function.update_self] at hq hop
      exact h.kind (hkind hq) hop
    · rw [hothers q hqp] at hq hop
      exact h.kind hq hop
  · by_cases hqp : q = p
    · subst hqp
      have hold := h.quiet hinv hop hnot
      have hne : (gs q).phase ≠ .other := by
        intro hother
        have hinv : o.invoked q = some op := hinv
        rw [(h.seen hidle).1] at hinv
        rw [h.kind hother hinv] at hop
        cases hop
      exact unmoved_step hold (husers hne) hsame
    · rw [hothers q hqp] at hq
      show ∀ ch ∈ o.changes.step w p w' q, ch.Unmoved
      rw [Ledger.step_of_ne hqp]
      exact h.quiet hinv hop hq

/-- A phase whose calls do not register. -/
def Phase.isFree (m : Phase) : Prop := m = .other ∨ m = .probing

theorem next_free {m : Phase} (hm : m.isFree) {β : Type} (a : Act β) (b : β) : m.next a b = m := by
  rcases hm with rfl | rfl
  · cases a with
    | query s =>
        cases b with
        | ok r => cases s <;> rfl
        | error e => rfl
    | _ => rfl
  · cases a with
    | query s =>
        cases b with
        | ok r => cases s <;> rfl
        | error e => rfl
    | _ => rfl

/-- What such a call may do is covered. -/
theorem free_covers {m : Phase} (hm : m.isFree) {β : Type} {a : Act β} (ha : m.allow a) {x : Write}
    (hx : a.May x) : m.Covers x := by
  have hcomplete : Power.complete ∉ x.powers := by
    intro h
    rcases hm with rfl | rfl <;> cases fresh_of_complete ha (hx.1 h)
  rcases hm with rfl | rfl
  · exact hcomplete
  · cases a with
    | query s =>
        rcases ha with ⟨hne, -⟩ | ⟨-, hu, hacc, -⟩ | ⟨hin, -⟩
        · cases hne
        · exact ⟨hx.2.trans hu, fun h => hacc (hx.1 h), hcomplete⟩
        · cases hin
    | sign payload ttl =>
        refine ⟨hx.2, fun h => ?_, hcomplete⟩
        have hpowers := hx.1 h
        cases payload <;> simp [Act.powers] at hpowers
    | _ =>
        refine ⟨hx.2, fun h => ?_, hcomplete⟩
        have hpowers := hx.1 h
        simp [Act.powers] at hpowers

/-- Any step of a call that does not register. -/
theorem Booted.step_free {β : Type} {a : Act β} {b : β} (h : Booted w o gs)
    (hfree : (gs p).phase.isFree) (ha : (gs p).phase.allow a)
    (hx : exec S p a e w = some (b, w')) :
    Booted w' (o.step w p a w')
      (Function.update gs p ⟨(gs p).op, (gs p).phase, tokenRead a b (gs p).seen⟩) := by
  have hp := h.holds p
  have hstep := allowed_step ha hp hx
  obtain ⟨ws, heq, hws⟩ := hstep.committed_eq (P := (gs p).phase.Covers) hp.writes
    fun x hmay => free_covers hfree ha hmay
  have hsame : SameFlag w.db w'.db := by
    show SameFlag w.tables.committed w'.tables.committed
    rw [heq]
    refine SameFlag.foldl (fun x hx => ?_) _
    have hcovers := hws x hx
    rcases hfree with hm | hm
    · rw [hm] at hcovers
      exact hcovers
    · rw [hm] at hcovers
      exact hcovers.2.2
  have husers : (gs p).phase ≠ .other → w'.db.users = w.db.users := by
    intro hne
    show w'.tables.committed.users = w.tables.committed.users
    rw [heq]
    refine foldl_users _ fun x hx => ?_
    have hcovers := hws x hx
    rw [hfree.resolve_left hne] at hcovers
    exact ⟨hcovers.1, hcovers.2.1⟩
  have hnot : ∀ {m : Phase}, m.isFree → m.isInside = false ∧ m.isLocked = false ∧
      m.isUnset = false ∧ m ≠ .fresh ∧ m ≠ .completed := by
    intro m hm
    rcases hm with rfl | rfl <;> decide
  obtain ⟨hin, hlock, hunset, hfresh, hcompleted⟩ := hnot hfree
  have hholds : Holds (gs p).phase w' p := by
    refine ⟨fun hws => hstep.pending_all hp.writes (fun x hmay => free_covers hfree ha hmay) hws,
      fun hm => ?_, fun hm => ?_, fun hm => ?_, fun hm => absurd hm hfresh,
      fun hm => absurd hm hcompleted, fun hm => absurd hm (allow_alive ha).1⟩
    · rw [hin] at hm
      cases hm
    · rw [hlock] at hm
      cases hm
    · rw [hunset] at hm
      cases hm
  exact h.move ha hx hsame husers hholds (allow_alive ha).2 fun hm => hm

/-- A registration inside its transaction is not set back by a statement. -/
theorem Holds.put {m : Phase} {takes : List Lock} {ws₀ ws : List Write} (h : Holds m w p)
    (hin : m.isInside = true) (hws₀ : w.tables.pending p = some ws₀)
    (htables : w'.tables = w.tables.put Db.apply p takes ws) : Holds m w' p := by
  have hview : (w'.view p).setupState = flagAfter ws (w.view p).setupState := by
    show (w'.tables.view Db.apply p).setupState = _
    rw [htables, Store.view_put, foldl_setupState]
    rfl
  refine ⟨fun _ x _ => ?_, fun _ => ?_, fun hm => ?_, fun hm => ?_, fun hm => ?_, fun hm => ?_,
    fun hm => absurd hm (Phase.inside_ne hin).1⟩
  · cases m <;> trivial
  · rw [htables, Store.put_pending_of_some hws₀]
    rfl
  · rw [htables]
    exact Store.put_owner_self (h.lock hm)
  · show w'.tables.committed.setupState ≠ some true
    rw [htables, Store.put_committed_of_some hws₀]
    exact h.unset hm
  · rw [hview]
    exact flagAfter_isSome _ (h.row hm)
  · rw [hview, h.set hm]
    exact flagAfter_true _

/-- What it learns from one. -/
theorem Holds.learn {m : Phase} {α : Type} {s : Stmt α} {r : α} {ws₀ : List Write}
    (h : Holds m w p) (hin : m.isInside = true) (hws₀ : w.tables.pending p = some ws₀)
    (hans : (plan w.clock e (w.view p) s).answer = .ok r)
    (htables : w'.tables = w.tables.put Db.apply p (plan w.clock e (w.view p) s).takes
      (plan w.clock e (w.view p) s).writes) : Holds (m.after s r) w' p := by
  have hsame : Holds m w' p := h.put hin hws₀ htables
  have hdb : w'.db = w.db := by
    show w'.tables.committed = w.tables.committed
    rw [htables]
    exact Store.put_committed_of_some hws₀
  have hview : (w'.view p).setupState
      = flagAfter (plan w.clock e (w.view p) s).writes (w.view p).setupState := by
    show (w'.tables.view Db.apply p).setupState = _
    rw [htables, Store.view_put, foldl_setupState]
    rfl
  cases s with
  | advisoryLock key =>
      cases m with
      | opened =>
          show Holds (if key = setupLockKey then .locked else .opened) w' p
          split
          next hkey =>
            refine ⟨fun _ _ _ => trivial, fun _ => hsame.inside rfl, fun _ => ?_, nofun, nofun, nofun,
              nofun⟩
            rw [htables, ← hkey]
            exact Store.put_owner_of_some hws₀ List.mem_cons_self
          next => exact hsame
      | _ => exact hsame
  | selectSetup =>
      cases m with
      | locked =>
          show Holds (if r = some false then .fresh else .locked) w' p
          split
          next hr =>
            have hseen : (w.view p).setupState = some false := by
              rw [← hr]
              exact Except.ok.inj hans
            refine ⟨fun _ _ _ => trivial, fun _ => hsame.inside rfl, fun _ => hsame.lock rfl,
              fun _ hset => ?_, fun _ => ?_, nofun, nofun⟩
            · -- a committed flag would be seen
              have hset : w.tables.committed.setupState = some true := by
                rw [hdb] at hset
                exact hset
              have hview' : (w.view p).setupState = some true := by
                show (w.tables.view Db.apply p).setupState = some true
                rw [Store.view_of_some hws₀, foldl_setupState, hset]
                exact flagAfter_true _
              rw [hseen] at hview'
              cases hview'
            · rw [hview]
              exact flagAfter_isSome _ (by rw [hseen]; rfl)
          next => exact hsame
      | _ => exact hsame
  | completeSetup =>
      cases m with
      | fresh =>
          refine ⟨fun _ _ _ => trivial, fun _ => hsame.inside rfl, fun _ => hsame.lock rfl,
            fun _ => hsame.unset rfl, nofun, fun _ => ?_, nofun⟩
          obtain ⟨f, hf⟩ := Option.isSome_iff_exists.mp (h.row rfl)
          rw [hview]
          simp [plan, hf, flagAfter, Write.flag]
      | _ => exact hsame
  | _ => exact hsame

theorem after_not_done {m : Phase} (hm : m.isInside = true) {α : Type} (s : Stmt α) (r : α) :
    m.after s r ≠ .done ∧ m.after s r ≠ .other := by
  have hm' : m ≠ .done ∧ m ≠ .other := ⟨(Phase.inside_ne hm).2.1, (Phase.inside_ne hm).2.2.1⟩
  cases s with
  | advisoryLock key =>
      cases m with
      | opened =>
          show (if key = setupLockKey then Phase.locked else .opened) ≠ .done ∧
            (if key = setupLockKey then Phase.locked else .opened) ≠ .other
          split <;> exact ⟨nofun, nofun⟩
      | _ => exact hm'
  | selectSetup =>
      cases m with
      | locked =>
          show (if r = some false then Phase.fresh else .locked) ≠ .done ∧
            (if r = some false then Phase.fresh else .locked) ≠ .other
          split <;> exact ⟨nofun, nofun⟩
      | _ => exact hm'
  | completeSetup =>
      cases m with
      | fresh => exact ⟨nofun, nofun⟩
      | _ => exact hm'
  | _ => exact hm'

/-- A statement of a registration. -/
theorem Booted.step_query {α : Type} {s : Stmt α} {b : Except Exn α} (h : Booted w o gs)
    (hin : (gs p).phase.isInside = true) (ha : (gs p).phase.allow (.query s))
    (hx : exec S p (.query s) e w = some (b, w')) :
    Booted w' (o.step w p (.query s) w')
      (Function.update gs p ⟨(gs p).op, (gs p).phase.next (.query s) b, (gs p).seen⟩) := by
  have hp := h.holds p
  obtain ⟨-, hdone, hother, -⟩ := Phase.inside_ne hin
  obtain ⟨ws₀, hws₀⟩ := Option.isSome_iff_exists.mp (hp.inside hin)
  have hdb : w'.db = w.db := by
    rcases exec_query hx with ⟨-, rfl⟩ | ⟨-, -, -, rfl⟩
    · rfl
    · exact Store.put_committed_of_some hws₀
  have hsame : SameFlag w.db w'.db := Or.inl (by rw [hdb])
  have husers : (gs p).phase ≠ .other → w'.db.users = w.db.users := fun _ => by rw [hdb]
  rcases exec_query hx with ⟨rfl, hw⟩ | ⟨hb, -, -, hw⟩
  · have hholds : Holds (gs p).phase w' p := by
      rw [hw]
      exact hp
    exact h.move ha hx hsame husers hholds hdone fun hm => absurd hm hother
  · cases b with
    | error err =>
        exact h.move ha hx hsame husers (hp.put hin hws₀ (by rw [hw])) hdone
          fun hm => absurd hm hother
    | ok r =>
        obtain ⟨hdone', hother'⟩ := after_not_done hin s r
        exact h.move ha hx hsame husers (hp.learn hin hws₀ hb.symm (by rw [hw])) hdone'
          fun hm => absurd hm hother'

/-- A registration that leaves its transaction without a commit. -/
theorem Booted.step_out {β : Type} {a : Act β} {b : β} (h : Booted w o gs)
    (ha : (gs p).phase.allow a) (hx : exec S p a e w = some (b, w')) (hdb : w'.db = w.db)
    (hnone : w'.tables.pending p = none) :
    Booted w' (o.step w p a w')
      (Function.update gs p ⟨(gs p).op, .out, tokenRead a b (gs p).seen⟩) :=
  h.move ha hx (Or.inl (by rw [hdb])) (fun _ => by rw [hdb]) (Holds.outside rfl hnone) nofun nofun

/-- A registration commits: it is the first. -/
theorem Booted.step_done {b : Except Exn Unit} (h : Booted w o gs)
    (hcompleted : (gs p).phase = .completed) (hx : exec S p .commit e w = some (b, w'))
    (hw : w' = { w with tables := w.tables.commit Db.apply p }) :
    Booted w' (o.step w p .commit w')
      (Function.update gs p ⟨(gs p).op, .done, (gs p).seen⟩) := by
  have hp := h.holds p
  have ha : (gs p).phase.allow .commit := Or.inr (Or.inr hcompleted)
  have hstep := allowed_step ha hp hx
  have hothers : ∀ q, q ≠ p → Function.update gs p ⟨(gs p).op, .done, (gs p).seen⟩ q = gs q :=
    fun q hq => Function.update_of_ne hq _ _
  -- the flag was unset, so no other registration has committed
  have hnone : ∀ q, (gs q).phase ≠ .done := by
    intro q hq
    exact hp.unset (by rw [hcompleted]; rfl) (h.flag.mpr ⟨q, hq⟩)
  have hset : w'.db.setupState = some true := by
    rw [hw]
    exact hp.set hcompleted
  have honly : ∀ q, (Function.update gs p ⟨(gs p).op, .done, (gs p).seen⟩ q).phase = .done →
      q = p := by
    intro q hq
    by_contra hne
    rw [hothers q hne] at hq
    exact hnone q hq
  refine ⟨hstep.sound h.sound, fun q => ?_, ?_, fun {q r} hq hr => ?_, fun {q} hq => ?_,
    fun {q op} hq hop => ?_, fun {q op} hinv hop hq => ?_⟩
  · by_cases hq : q = p
    · subst hq
      rw [Function.update_self, hw]
      exact Holds.outside rfl Store.commit_pending_self
    · rw [hothers q hq]
      refine (h.holds q).transfer (hstep.pending_of_ne hq) fun hk => ?_
      -- the lock is held by `p`
      have hlock := hp.lock (by rw [hcompleted]; rfl)
      rw [hk, Option.some.injEq] at hlock
      exact absurd hlock hq
  · refine ⟨fun _ => ⟨p, ?_⟩, fun _ => hset⟩
    rw [Function.update_self]
  · rw [honly q hq, honly r hr]
  · by_cases hqp : q = p
    · subst hqp
      rw [Function.update_self]
      exact h.seen (by rw [hcompleted]; nofun)
    · rw [hothers q hqp] at hq ⊢
      exact h.seen hq
  · by_cases hqp : q = p
    · subst hqp
      rw [Function.update_self] at hq
      cases hq
    · rw [hothers q hqp] at hq hop
      exact h.kind hq hop
  · by_cases hqp : q = p
    · subst hqp
      rw [Function.update_self] at hq
      exact absurd rfl hq
    · rw [hothers q hqp] at hq
      show ∀ ch ∈ o.changes.step w p w' q, ch.Unmoved
      rw [Ledger.step_of_ne hqp]
      exact h.quiet hinv hop hq

/-- A registration begins. -/
theorem Booted.step_begin {b : Except Exn Unit} (h : Booted w o gs) (hout : (gs p).phase = .out)
    (ha : (gs p).phase.allow .begin) (hx : exec S p .begin e w = some (b, w')) :
    Booted w' (o.step w p .begin w')
      (Function.update gs p ⟨(gs p).op, (gs p).phase.next .begin b, (gs p).seen⟩) := by
  have hp := h.holds p
  rcases exec_begin hx with ⟨rfl, hw⟩ | ⟨rfl, -, hw⟩
  · have hholds : Holds (gs p).phase w' p := by
      rw [hw]
      exact hp
    rw [hout] at hholds ⊢
    exact h.move ha hx (Or.inl (by rw [hw])) (fun _ => by rw [hw]) hholds nofun nofun
  · have hholds : Holds .opened w' p := by
      refine ⟨fun _ _ _ => trivial, fun _ => ?_, nofun, nofun, nofun, nofun, nofun⟩
      rw [hw]
      show ((w.tables.begin p).pending p).isSome = true
      rw [Store.begin_pending_self]
      rfl
    have hdb : w'.db = w.db := by
      rw [hw]
      rfl
    rw [hout]
    exact h.move ha hx (Or.inl (by rw [hdb])) (fun _ => by rw [hdb]) hholds nofun nofun

/-- A silent step of a registration. -/
theorem Booted.step_silent {β : Type} {a : Act β} {b : β} (h : Booted w o gs)
    (ha : (gs p).phase.allow a) (hsilent : a.isSilent = true) (hother : (gs p).phase ≠ .other)
    (hx : exec S p a e w = some (b, w')) :
    Booted w' (o.step w p a w')
      (Function.update gs p ⟨(gs p).op, (gs p).phase, tokenRead a b (gs p).seen⟩) := by
  have htables := exec_silent hsilent hx
  have hdb : w'.db = w.db := by
    unfold World.db
    rw [htables]
  have hholds : Holds (gs p).phase w' p := by
    refine (h.holds p).transfer (by rw [htables]) fun hk => ?_
    rw [htables]
    exact ⟨hk, Or.inl (by rw [hdb])⟩
  exact h.move ha hx (Or.inl (by rw [hdb])) (fun _ => by rw [hdb]) hholds (allow_alive ha).2
    fun hm => absurd hm hother

/-- **One step.** -/
theorem Booted.step {β : Type} {a : Act β} {b : β} (h : Booted w o gs)
    (ha : (gs p).phase.allow a) (hx : exec S p a e w = some (b, w')) :
    ∃ m, monitor.next (gs p) a b m ∧ Booted w' (o.step w p a w') (Function.update gs p m) := by
  refine ⟨_, rfl, ?_⟩
  by_cases hfree : (gs p).phase.isFree
  · rw [next_free hfree]
    exact h.step_free hfree ha hx
  have hother : (gs p).phase ≠ .other := fun hc => hfree (Or.inl hc)
  have hprobing : (gs p).phase ≠ .probing := fun hc => hfree (Or.inr hc)
  cases a with
  | query s =>
      refine h.step_query ?_ ha hx
      rcases ha with ⟨hc, -⟩ | ⟨hc, -⟩ | ⟨hin, -⟩
      · exact absurd hc hother
      · exact absurd hc hprobing
      · exact hin
  | begin => exact h.step_begin ((ha.resolve_left hother).resolve_left hprobing) ha hx
  | commit =>
      have hcompleted := (ha.resolve_left hother).resolve_left hprobing
      rcases exec_commit hx with ⟨rfl, hw⟩ | ⟨rfl, hw⟩
      · have hout : (gs p).phase.next .commit (.error .statementFailed) = .out := by
          rw [hcompleted]
          rfl
        rw [hout]
        refine h.step_out ha hx (by rw [hw]; rfl) ?_
        rw [hw]
        exact Store.rollback_pending_self
      · have hdone : (gs p).phase.next .commit (.ok ()) = .done := by
          rw [hcompleted]
          rfl
        rw [hdone]
        exact h.step_done hcompleted hx hw
  | rollback =>
      have hin := (ha.resolve_left hother).resolve_left hprobing
      have hw := exec_rollback hx
      have hout : (gs p).phase.next .rollback b = .out := if_pos hin
      rw [hout]
      refine h.step_out ha hx (by rw [hw]; rfl) ?_
      rw [hw]
      exact Store.rollback_pending_self
  | _ => exact h.step_silent ha rfl hother hx

end Steps

/-! ## §6. Runs. -/

/-- A new call. -/
theorem Booted.invoke {w : World} {o : Diary} {gs : Pid → Track} {p : Pid} (op : Op)
    (h : Booted w o gs) (hp : gs p = Track.idle) :
    Booted w (diary.onInvoke o w p op) (Function.update gs p (start op)) := by
  have hothers : ∀ q, q ≠ p → Function.update gs p (start op) q = gs q :=
    fun q hq => Function.update_of_ne hq _ _
  have hstart : (start op).phase ≠ .done ∧ (start op).phase ≠ .idle ∧
      (start op).phase.isInside = false := by
    cases op <;> exact ⟨nofun, nofun, rfl⟩
  have hdones : ∀ q, (Function.update gs p (start op) q).phase = .done ↔ (gs q).phase = .done := by
    intro q
    by_cases hq : q = p
    · subst hq
      rw [Function.update_self, hp]
      exact ⟨fun hd => absurd hd hstart.1, nofun⟩
    · rw [hothers q hq]
  refine ⟨h.sound, fun q => ?_, ?_, fun {q r} hq hr => ?_, fun {q} hq => ?_,
    fun {q op'} hq hop => ?_, fun {q op'} hinv hop hq => ?_⟩
  · by_cases hq : q = p
    · subst hq
      rw [Function.update_self]
      exact Holds.outside hstart.2.2 ((h.holds q).vacant (by rw [hp]; rfl))
    · rw [hothers q hq]
      exact h.holds q
  · rw [h.flag]
    exact exists_congr fun q => (hdones q).symm
  · exact h.unique ((hdones q).mp hq) ((hdones r).mp hr)
  · by_cases hqp : q = p
    · subst hqp
      rw [Function.update_self]
      exact ⟨Function.update_self .., Function.update_self ..⟩
    · rw [hothers q hqp] at hq ⊢
      have hold := h.seen hq
      refine ⟨?_, ?_⟩
      · exact (Function.update_of_ne hqp _ _).trans hold.1
      · exact (Function.update_of_ne hqp _ _).trans hold.2
  · by_cases hqp : q = p
    · subst hqp
      rw [Function.update_self] at hq hop
      cases hop
      cases op <;> first | rfl | cases hq
    · rw [hothers q hqp] at hq hop
      exact h.kind hq hop
  · by_cases hqp : q = p
    · subst hqp
      intro ch hch
      have hch : ch ∈ Function.update o.changes q [] q := hch
      rw [Function.update_self] at hch
      exact absurd hch List.not_mem_nil
    · rw [hothers q hqp] at hq
      have hinv : Function.update o.invoked p (some op) q = some op' := hinv
      rw [Function.update_of_ne hqp] at hinv
      show ∀ ch ∈ Function.update o.changes p [] q, ch.Unmoved
      rw [Function.update_of_ne hqp]
      exact h.quiet hinv hop hq

/-- The surroundings move on. -/
theorem Booted.ambient {w w' : World} {o : Diary} {gs : Pid → Track} {e : Env}
    (h : Booted w o gs) (hx : Accounts.ambient e w = some w') : Booted w' o gs := by
  obtain ⟨hpending, howner, -, -, hflag, -, -⟩ := ambient_frame hx
  have hsame : SameFlag w.db w'.db := Or.inl hflag
  refine ⟨fun q ws x k hws hxw hk => ?_, fun q => ?_, ?_, h.unique, h.seen, h.kind, h.quiet⟩
  · rw [hpending] at hws
    rw [howner]
    exact h.sound q ws x k hws hxw hk
  · refine (h.holds q).transfer (by rw [hpending]) fun hk => ?_
    rw [howner]
    exact ⟨hk, hsame⟩
  · rw [hflag]
    exact h.flag

/-- The process dies; the calls that survive had left their transactions, and
one that has committed survives. -/
theorem Booted.reboot {w w' : World} {o : Diary} {gs : Pid → Track} {e : Env}
    {alive : Pid → Bool} (h : Booted w o gs) (hx : Accounts.reboot e w = some w')
    (hended : ∀ p, alive p = true → (gs p).phase.isInside = false)
    (hlost : ∀ p, alive p = false → (gs p).phase ≠ .done) :
    Booted w' o fun p => if alive p then gs p else Track.idle := by
  cases hx
  have hdones : ∀ q, (if alive q then gs q else Track.idle).phase = .done ↔
      (gs q).phase = .done := by
    intro q
    cases hq : alive q with
    | true => exact Iff.rfl
    | false => exact ⟨nofun, fun hd => absurd hd (hlost q hq)⟩
  refine ⟨Store.Sound.crash _, fun q => ?_, ?_, fun {q r} hq hr => ?_, fun {q} hq => ?_,
    fun {q op} hq hop => ?_, fun {q op} hinv hop hq => ?_⟩
  · cases hq : alive q with
    | true => exact Holds.outside (hended q hq) rfl
    | false => exact Holds.outside rfl rfl
  · show w.db.setupState = some true ↔ _
    rw [h.flag]
    exact exists_congr fun q => (hdones q).symm
  · exact h.unique ((hdones q).mp hq) ((hdones r).mp hr)
  · cases hqa : alive q with
    | true =>
        simp only [hqa, if_true] at hq ⊢
        exact h.seen hq
    | false =>
        simp only [hqa] at hq
        exact absurd rfl hq
  · cases hqa : alive q with
    | true =>
        simp only [hqa, if_true] at hq hop
        exact h.kind hq hop
    | false =>
        simp only [hqa] at hq
        cases hq
  · exact h.quiet hinv hop fun hd => hq ((hdones q).mpr hd)

/-- The invariant in every run from a freshly migrated database. -/
theorem booted_run {S : Settings} (hinj : Function.Injective S.sha256) {w₀ : World}
    (hquiet : w₀.tables = Store.quiet w₀.db) (hfresh : w₀.db.setupState = none) {c : Conf}
    {o : Diary} (h : (system S).Reach diary (Config.init w₀) Diary.blank c o) :
    ∃ gs, Booted c.world o gs ∧
      System.Tracks (fun _ => monitor) Track.idle (Returned S) Thrown c gs := by
  have hstartIn : ∀ op, (startPhase op).isInside = false ∧ startPhase op ≠ .done := by
    intro op
    cases op <;> exact ⟨rfl, nofun⟩
  refine System.Reach.sound (M := fun _ => monitor) start Booted ?_ ?_ ?_ ?_ ?_ ?_ h
  · intro o w p op _
    exact body_keeps hinj op
  · intro w o gs p op hI hp _
    exact hI.invoke op hp
  · intro w o gs p op β a e b w' hI ha _ hx
    exact hI.step ha hx
  · intro w o gs e w' hI hx
    exact hI.ambient hx
  · intro w o gs e w' alive hI hx hended hlost
    refine hI.reboot (e := e) hx (fun p hp => ?_) fun p hp => ?_
    · obtain ⟨op, ⟨r, -, hr, -⟩ | ⟨err, -, herr⟩⟩ := hended p hp
      · rw [hr]
        split
        next => rfl
        next => exact (hstartIn op).1
      · rw [herr]
        exact (hstartIn op).1
    · rcases hlost p hp with hidle | ⟨op, β, a, ha⟩
      · rw [hidle]
        nofun
      · exact (allow_alive ha).2
  · have hpending : ∀ p, w₀.tables.pending p = none := by
      intro p
      rw [hquiet]
      rfl
    refine ⟨?_, fun q => Holds.outside rfl (hpending q), ?_, nofun, fun hne => absurd rfl hne, nofun,
      fun hinv => ?_⟩
    · rw [hquiet]
      exact Store.Sound.quiet _
    · rw [hfresh]
      exact ⟨nofun, fun ⟨_, hd⟩ => nomatch hd⟩
    · cases hinv

/-- A committed registration has returned. -/
theorem returned_of_done {S : Settings} {c : Conf} {gs : Pid → Track} {p : Pid}
    (hT : System.Tracks (fun _ => monitor) Track.idle (Returned S) Thrown c gs)
    (hp : (gs p).phase = .done) :
    ∃ op r, isRegistration op = true ∧ c.returned p op r := by
  have hnot : ∀ op, startPhase op ≠ .done := by
    intro op
    cases op <;> nofun
  cases hc : c.calls p with
  | none =>
      rw [hT.not_invoked hc] at hp
      cases hp
  | some t =>
      obtain ⟨op, rest⟩ := t
      cases rest with
      | ret r =>
          obtain ⟨-, hphase, -⟩ := hT.returned hc
          refine ⟨op, r, ?_, hc⟩
          by_contra hreg
          rw [if_neg hreg] at hphase
          exact hnot op (hphase.symm.trans hp)
      | fail e =>
          obtain ⟨-, hphase⟩ := hT.failed hc
          exact absurd (hphase.symm.trans hp) (hnot op)
      | act a k => exact absurd hp (allow_alive (hT.allow hc)).2

/-- **Exactly one bootstrap.**  From a freshly migrated database, in every
interleaving of account operations, restarts included: at most one
registration succeeds; the flag is set exactly when one has; a setup call that
has not succeeded (it failed, still runs, or was lost in a restart) has moved
neither users nor flag; and a registration that succeeds was given the setup
token it had to present. -/
theorem bootstrap_exactly_once (S : Settings) (hinj : Function.Injective S.sha256) (w₀ : World)
    (hquiet : w₀.tables = Store.quiet w₀.db) (hfresh : w₀.db.setupState = none) (c : Conf)
    (o : Diary) (h : (system S).Reach diary (Config.init w₀) Diary.blank c o) :
    (∀ {p q : Pid} {op op' : Op} {r r' : Reply}, isRegistration op = true →
      isRegistration op' = true → c.returned p op r → c.returned q op' r' → p = q) ∧
    (c.world.db.setupState = some true ↔
      ∃ p op r, isRegistration op = true ∧ c.returned p op r) ∧
    (∀ {p : Pid} {op : Op}, o.invoked p = some op → isSetup op = true →
      (∀ r, ¬ c.returned p op r) → ∀ ch ∈ o.changes p, ch.Unmoved) ∧
    ∀ {p : Pid} {email username password : String} {token : Option String} {r : Reply},
      c.returned p (.initAdminRegister email username password token) r →
      ∃ t, token = some t ∧ (configuredSetupToken S).or (o.read p) = some t := by
  obtain ⟨gs, hI, hT⟩ := booted_run hinj hquiet hfresh h
  have hdone : ∀ {p op r}, isRegistration op = true → c.returned p op r →
      (gs p).phase = .done := by
    intro p op r hop hp
    obtain ⟨-, hphase, -⟩ := hT.returned hp
    rw [hphase, if_pos hop]
  refine ⟨?_, ?_, ?_, ?_⟩
  · intro p q op op' r r' hop hop' hp hq
    exact hI.unique (hdone hop hp) (hdone hop' hq)
  · rw [hI.flag]
    constructor
    · rintro ⟨p, hp⟩
      obtain ⟨op, r, hop, hr⟩ := returned_of_done hT hp
      exact ⟨p, op, r, hop, hr⟩
    · rintro ⟨p, op, r, hop, hr⟩
      exact ⟨p, hdone hop hr⟩
  · intro p op hinv hop hnot
    refine hI.quiet hinv hop fun hp => ?_
    obtain ⟨op', r, -, hr⟩ := returned_of_done hT hp
    obtain ⟨hop', -, -⟩ := hT.returned hr
    have hidle : (gs p).phase ≠ .idle := by
      rw [hp]
      nofun
    rw [(hI.seen hidle).1, hop', Option.some.injEq] at hinv
    rw [hinv] at hr
    exact hnot r hr
  · intro p email username password token r hp
    have hphase := hdone rfl hp
    obtain ⟨-, -, t, ht, hexpected⟩ := hT.returned hp
    have hidle : (gs p).phase ≠ .idle := by
      rw [hphase]
      nofun
    rw [(hI.seen hidle).2]
    exact ⟨t, ht, hexpected⟩

/-- A freshly migrated installation. -/
def freshWorld : World := World.boot { sampleDb with users := Table.empty, setupState := none } 0

/-- Two registrations with the configured token race for the lock. -/
def registrationRace : List (Event Env Op) :=
  [.invoke 0 (.initAdminRegister "a@example.com" "a" "old-password" (some "let-me-in")),
   .invoke 1 (.initAdminRegister "b@example.com" "b" "old-password" (some "let-me-in")),
   .step 0 {}, .step 0 {}, .step 1 {}, .step 1 {}, .step 1 {}, .step 1 {}, .step 1 {},
   .step 1 { uuid := 1 }, .step 1 {}, .step 1 {}, .step 0 {}, .step 0 {}, .step 0 {}, .step 0 {}]

/-- The second to reach the lock fails, and has changed nothing. -/
theorem registrationRace_one :
    ∃ c o, (system sampleSettings).Reach diary (Config.init freshWorld) Diary.blank c o ∧
      c.failed 0 (.initAdminRegister "a@example.com" "a" "old-password" (some "let-me-in"))
        (.conflict "SetupAlreadyComplete") ∧
      (∀ ch ∈ o.changes 0, ch.Unmoved) ∧ c.world.db.setupState = some true := by
  obtain ⟨c, o, h, ht⟩ := System.Reach.of_replay (S := system sampleSettings) (V := diary)
    freshWorld Diary.blank registrationRace
    (fun c o => c.failure 0 == some
        (.initAdminRegister "a@example.com" "a" "old-password" (some "let-me-in"),
          .conflict "SetupAlreadyComplete") &&
      c.result 1 == some
        (.initAdminRegister "b@example.com" "b" "old-password" (some "let-me-in"), .done) &&
      o.invoked 0 == some
        (.initAdminRegister "a@example.com" "a" "old-password" (some "let-me-in")))
    (by decide +kernel)
  rw [Bool.and_eq_true_iff, Bool.and_eq_true_iff, beq_iff_eq, beq_iff_eq, beq_iff_eq] at ht
  obtain ⟨⟨hfailed, hreturned⟩, hinvoked⟩ := ht
  have hfailed := Config.failed_of_failure hfailed
  obtain ⟨-, hflag, hquiet, -⟩ := bootstrap_exactly_once sampleSettings sampleSha256_injective
    freshWorld rfl rfl c o h
  refine ⟨c, o, h, hfailed, hquiet hinvoked rfl fun r hr => ?_,
    hflag.mpr ⟨1, _, _, rfl, Config.returned_of_result hreturned⟩⟩
  have hboth : c.calls 0 = _ := hfailed
  rw [hr] at hboth
  cases hboth

end Bootstrap

end MinePanel.Accounts
