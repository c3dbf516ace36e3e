/-
  MinePanel.Lib.System
  ────────────────────
  **POOLS OF INTERLEAVED CALLS.**

  A `System` gives the actions of a family of calls their meaning: `exec` runs
  one action of one call on the shared world, with everything the outside
  decides (answers of a daemon, new identifiers) drawn from an environment
  value.  A configuration is the world with every call that was ever invoked;
  its steps are

      invoke   a client starts a new call,
      step     one call performs its next action,
      ambient  the surroundings move on their own (a clock ticks),
      reboot   the process dies: every unfinished call is lost.

  A `Watch` states a property of whole runs without touching the program: it
  carries a history `O` updated at every step, and two executable filters that
  say which invocations and which steps the property is about.

    * `System.Reach` — the configurations of all interleavings;
    * `System.replay` — the executable version, for concrete runs;
    * `System.Reach.sound` — **THE INVARIANT RULE**: one monitor state per
      call, every action of an allowed call preserves the invariant.
-/
import MinePanel.Lib.Prog

namespace MinePanel.Lib

universe u v w

/-- The name of a call. -/
abbrev Pid := Nat

/-! ## §1. Systems and their runs. -/

/-- The meaning of a family of calls over a world `W`. -/
structure System (Act : Type → Type u) (ε α W Env Op : Type) where
  /-- The code of an operation. -/
  body : Op → Prog Act ε α
  /-- One action of one call; `none` where it cannot happen now. -/
  exec : Pid → ∀ {β : Type}, Act β → Env → W → Option (β × W)
  /-- A step of the surroundings. -/
  ambient : Env → W → Option W := fun _ _ => none
  /-- What the death of the process does to the world. -/
  reboot : Env → W → Option W := fun _ _ => none

/-- An invoked operation and what is left of its code. -/
structure Task (Act : Type → Type u) (ε α Op : Type) where
  op : Op
  rest : Prog Act ε α

/-- The world and every call so far. -/
structure Config (Act : Type → Type u) (ε α W Op : Type) where
  world : W
  calls : Pid → Option (Task Act ε α Op)

/-- What happens next. -/
inductive Event (Env Op : Type) where
  | invoke (p : Pid) (op : Op)
  | step (p : Pid) (e : Env)
  | ambient (e : Env)
  | reboot (e : Env)

/-- A run property: a history, and the runs it is about. -/
structure Watch (Act : Type → Type u) (W Env Op : Type) (O : Type w) where
  accepts : O → W → Pid → Op → Bool := fun _ _ _ _ => true
  guard : O → W → Pid → Op → ∀ {β : Type}, Act β → Env → Bool := fun _ _ _ _ _ _ _ => true
  onInvoke : O → W → Pid → Op → O := fun o _ _ _ => o
  onStep : O → W → Pid → Op → ∀ {β : Type}, Act β → β → W → O := fun o _ _ _ _ _ _ _ => o
  onAmbient : O → W → W → O := fun o _ _ => o
  onReboot : O → W → W → O := fun o _ _ => o

section

variable {Act : Type → Type u} {ε α W Env Op : Type} {O : Type w} {μ : Type v}

namespace Config

/-- The configuration in which nothing has been invoked. -/
def init (w : W) : Config Act ε α W Op := ⟨w, fun _ => none⟩

/-- Call `p` is now `t`, in the world `w`. -/
def put (c : Config Act ε α W Op) (w : W) (p : Pid) (t : Task Act ε α Op) :
    Config Act ε α W Op := ⟨w, Function.update c.calls p (some t)⟩

/-- The unfinished calls are gone. -/
def killed (c : Config Act ε α W Op) (w : W) : Config Act ε α W Op :=
  ⟨w, fun p => (c.calls p).filter fun t => t.rest.isDone⟩

/-- What call `p` has returned, if it has. -/
def result (c : Config Act ε α W Op) (p : Pid) : Option (Op × α) :=
  match c.calls p with
  | some ⟨op, .ret a⟩ => some (op, a)
  | _ => none

/-- What call `p` has failed with, if it has. -/
def failure (c : Config Act ε α W Op) (p : Pid) : Option (Op × ε) :=
  match c.calls p with
  | some ⟨op, .fail e⟩ => some (op, e)
  | _ => none

/-- Call `p` has returned `a`. -/
def returned (c : Config Act ε α W Op) (p : Pid) (op : Op) (a : α) : Prop :=
  c.calls p = some ⟨op, .ret a⟩

/-- Call `p` has failed with `e`. -/
def failed (c : Config Act ε α W Op) (p : Pid) (op : Op) (e : ε) : Prop :=
  c.calls p = some ⟨op, .fail e⟩

theorem returned_of_result {c : Config Act ε α W Op} {p : Pid} {op : Op} {a : α}
    (h : c.result p = some (op, a)) : c.returned p op a := by
  unfold result at h
  split at h
  next hc =>
    cases h
    exact hc
  next => cases h

theorem failed_of_failure {c : Config Act ε α W Op} {p : Pid} {op : Op} {e : ε}
    (h : c.failure p = some (op, e)) : c.failed p op e := by
  unfold failure at h
  split at h
  next hc =>
    cases h
    exact hc
  next => cases h

end Config

namespace System

variable (S : System Act ε α W Env Op) (V : Watch Act W Env Op O)

/-- Every configuration, with its history, that the interleavings `V` is about
reach from `c₀`. -/
inductive Reach (c₀ : Config Act ε α W Op) (o₀ : O) : Config Act ε α W Op → O → Prop where
  | refl : Reach c₀ o₀ c₀ o₀
  | invoke {c o p op} : Reach c₀ o₀ c o → c.calls p = none → V.accepts o c.world p op = true →
      Reach c₀ o₀ (c.put c.world p ⟨op, S.body op⟩) (V.onInvoke o c.world p op)
  | step {c o p op} {β : Type} {a : Act β} {k e b w'} : Reach c₀ o₀ c o →
      c.calls p = some ⟨op, .act a k⟩ → V.guard o c.world p op a e = true →
      S.exec p a e c.world = some (b, w') →
      Reach c₀ o₀ (c.put w' p ⟨op, k b⟩) (V.onStep o c.world p op a b w')
  | ambient {c o e w'} : Reach c₀ o₀ c o → S.ambient e c.world = some w' →
      Reach c₀ o₀ ⟨w', c.calls⟩ (V.onAmbient o c.world w')
  | reboot {c o e w'} : Reach c₀ o₀ c o → S.reboot e c.world = some w' →
      Reach c₀ o₀ (c.killed w') (V.onReboot o c.world w')

/-- One event, executably. -/
def fire (c : Config Act ε α W Op) (o : O) : Event Env Op → Option (Config Act ε α W Op × O)
  | .invoke p op =>
      match c.calls p with
      | none =>
          if V.accepts o c.world p op
          then some (c.put c.world p ⟨op, S.body op⟩, V.onInvoke o c.world p op) else none
      | some _ => none
  | .step p e =>
      match c.calls p with
      | some ⟨op, .act a k⟩ =>
          if V.guard o c.world p op a e then
            match S.exec p a e c.world with
            | some (b, w') => some (c.put w' p ⟨op, k b⟩, V.onStep o c.world p op a b w')
            | none => none
          else none
      | _ => none
  | .ambient e =>
      match S.ambient e c.world with
      | some w' => some (⟨w', c.calls⟩, V.onAmbient o c.world w')
      | none => none
  | .reboot e =>
      match S.reboot e c.world with
      | some w' => some (c.killed w', V.onReboot o c.world w')
      | none => none

/-- A list of events, executably. -/
def replay (c : Config Act ε α W Op) (o : O) :
    List (Event Env Op) → Option (Config Act ε α W Op × O)
  | [] => some (c, o)
  | e :: es => (S.fire V c o e).bind fun r => replay r.1 r.2 es

variable {S V}

/-- An executed event is a step of the relation. -/
theorem Reach.fire {c₀ c c' : Config Act ε α W Op} {o₀ o o' : O} {e : Event Env Op}
    (h : S.Reach V c₀ o₀ c o) (hf : S.fire V c o e = some (c', o')) :
    S.Reach V c₀ o₀ c' o' := by
  cases e with
  | invoke p op =>
      simp only [System.fire] at hf
      split at hf
      next hc =>
        split at hf
        next ha =>
          injection hf with hf
          injection hf with h₁ h₂
          subst h₁ h₂
          exact h.invoke hc ha
        next => cases hf
      next => cases hf
  | step p e =>
      simp only [System.fire] at hf
      split at hf
      next op β a k hc =>
        split at hf
        next hg =>
          split at hf
          next b w' hx =>
            injection hf with hf
            injection hf with h₁ h₂
            subst h₁ h₂
            exact h.step hc hg hx
          next => cases hf
        next => cases hf
      next => cases hf
  | ambient e =>
      simp only [System.fire] at hf
      split at hf
      next w' hw =>
        injection hf with hf
        injection hf with h₁ h₂
        subst h₁ h₂
        exact h.ambient hw
      next => cases hf
  | reboot e =>
      simp only [System.fire] at hf
      split at hf
      next w' hw =>
        injection hf with hf
        injection hf with h₁ h₂
        subst h₁ h₂
        exact h.reboot hw
      next => cases hf

/-- A replayed list of events is a run. -/
theorem Reach.replay {c₀ : Config Act ε α W Op} {o₀ : O} :
    ∀ (es : List (Event Env Op)) {c c' : Config Act ε α W Op} {o o' : O},
      S.Reach V c₀ o₀ c o → S.replay V c o es = some (c', o') → S.Reach V c₀ o₀ c' o'
  | [], c, c', o, o', h, hr => by
      injection hr with hr
      injection hr with h₁ h₂
      subst h₁ h₂
      exact h
  | e :: es, c, c', o, o', h, hr => by
      simp only [System.replay, Option.bind_eq_some_iff] at hr
      obtain ⟨⟨c₁, o₁⟩, hf, hr⟩ := hr
      exact Reach.replay es (h.fire hf) hr

/-- A replay that ends in a configuration passing the test `t` gives a run. -/
theorem Reach.of_replay (w₀ : W) (o₀ : O) (es : List (Event Env Op))
    (t : Config Act ε α W Op → O → Bool)
    (h : (S.replay V (Config.init w₀) o₀ es).any (fun r => t r.1 r.2) = true) :
    ∃ c o, S.Reach V (Config.init w₀) o₀ c o ∧ t c o = true := by
  cases hr : S.replay V (Config.init w₀) o₀ es with
  | none =>
      rw [hr] at h
      cases h
  | some r =>
      rw [hr] at h
      exact ⟨r.1, r.2, Reach.replay es .refl hr, h⟩

/-- Two replays, one after the other. -/
theorem Reach.of_replays (w₀ : W) (o₀ : O) (es es' : List (Event Env Op))
    (t : Config Act ε α W Op → O → Config Act ε α W Op → O → Bool)
    (h : (S.replay V (Config.init w₀) o₀ es).any (fun r =>
      (S.replay V r.1 r.2 es').any fun r' => t r.1 r.2 r'.1 r'.2) = true) :
    ∃ c o c' o', S.Reach V (Config.init w₀) o₀ c o ∧ S.Reach V c o c' o' ∧
      t c o c' o' = true := by
  cases hr : S.replay V (Config.init w₀) o₀ es with
  | none =>
      rw [hr] at h
      cases h
  | some r =>
      rw [hr] at h
      have h : (S.replay V r.1 r.2 es').any (fun r' => t r.1 r.2 r'.1 r'.2) = true := h
      cases hr' : S.replay V r.1 r.2 es' with
      | none =>
          rw [hr'] at h
          cases h
      | some r' =>
          rw [hr'] at h
          exact ⟨r.1, r.2, r'.1, r'.2, Reach.replay es .refl hr, Reach.replay es' .refl hr', h⟩

/-- Runs follow one another. -/
theorem Reach.trans {c₀ c c' : Config Act ε α W Op} {o₀ o o' : O} (h : S.Reach V c₀ o₀ c o)
    (h' : S.Reach V c o c' o') : S.Reach V c₀ o₀ c' o' := by
  induction h' with
  | refl => exact h
  | invoke _ hp ha ih => exact ih.invoke hp ha
  | step _ hp hg hx ih => exact ih.step hp hg hx
  | ambient _ hw ih => exact ih.ambient hw
  | reboot _ hw ih => exact ih.reboot hw

/-- **What a call has returned stays**, and its name is not used again. -/
theorem Reach.returned {c c' : Config Act ε α W Op} {o o' : O} (h : S.Reach V c o c' o')
    {p : Pid} {op : Op} {a : α} (hp : c.returned p op a) : c'.returned p op a := by
  induction h with
  | refl => exact hp
  | @invoke c₁ o₁ q op₁ _ hq _ ih =>
      have hne : p ≠ q := by
        rintro rfl
        rw [ih] at hq
        cases hq
      exact (Function.update_of_ne hne _ _).trans ih
  | @step c₁ o₁ q op₁ β b k e r w' _ hq _ _ ih =>
      have hne : p ≠ q := by
        rintro rfl
        rw [ih] at hq
        cases hq
      exact (Function.update_of_ne hne _ _).trans ih
  | ambient _ _ ih => exact ih
  | @reboot c₁ o₁ e w' _ _ ih =>
      have hcalls : c₁.calls p = some ⟨op, .ret a⟩ := ih
      show (c₁.calls p).filter _ = _
      rw [hcalls]
      rfl

/-! ## §2. A call that runs alone. -/

/-- What a call that runs alone comes to: what it returns or throws, the world
it leaves, and a note on every action it performed. -/
structure Outcome (ε α W τ : Type) where
  result : Except ε α
  world : W
  notes : List τ

/-- A call that runs alone from the world `w`, with one value of the
environment for every action; `none` where these run out, or an action cannot
happen. -/
def alone {τ : Type} (exec : ∀ {β : Type}, Act β → Env → W → Option (β × W))
    (note : ∀ {β : Type}, Act β → τ) : Prog Act ε α → List Env → W → Option (Outcome ε α W τ)
  | .ret a, _, w => some ⟨.ok a, w, []⟩
  | .fail e, _, w => some ⟨.error e, w, []⟩
  | .act _ _, [], _ => none
  | .act a k, e :: es, w =>
      (exec a e w).bind fun r =>
        (alone exec note (k r.1) es r.2).map fun out => { out with notes := note a :: out.notes }

/-- The monitor of a call that reads, in at most as many actions as its state
says, and gets the same answers from the worlds `w₁` and `w₂`. -/
def twin {τ : Type} (exec : ∀ {β : Type}, Act β → Env → W → Option (β × W))
    (note : ∀ {β : Type}, Act β → τ) (x : τ) (w₁ w₂ : W) : Monitor Act Nat where
  allow := fun n a => 0 < n ∧ note a = x ∧
    ∀ e, ∃ b, exec a e w₁ = some (b, w₁) ∧ exec a e w₂ = some (b, w₂)
  next := fun n a b n' => n = n' + 1 ∧ ∃ e, exec a e w₁ = some (b, w₁)

/-- **THE TWIN RULE.**  Such a call comes to the same in both worlds, leaves
each as it was, and ends once it is given `n` steps. -/
theorem alone_twin {τ : Type} {exec : ∀ {β : Type}, Act β → Env → W → Option (β × W)}
    {note : ∀ {β : Type}, Act β → τ} {x : τ} {w₁ w₂ : W} {p : Prog Act ε α} {n : Nat}
    (hp : p.wp (twin exec note x w₁ w₂) (fun _ _ => True) (fun _ _ => True) n) (es : List Env) :
    (es.length < n ∧ alone exec note p es w₁ = none ∧ alone exec note p es w₂ = none) ∨
      ∃ r notes, (∀ y ∈ notes, y = x) ∧ alone exec note p es w₁ = some ⟨r, w₁, notes⟩ ∧
        alone exec note p es w₂ = some ⟨r, w₂, notes⟩ := by
  -- along the program: both runs take the same action and get the same answer
  induction p generalizing n es with
  | ret a => exact Or.inr ⟨.ok a, [], by simp, rfl, rfl⟩
  | fail e => exact Or.inr ⟨.error e, [], by simp, rfl, rfl⟩
  | act a k ih =>
      obtain ⟨⟨hn, hx, hex⟩, hk⟩ := hp
      cases es with
      | nil => exact Or.inl ⟨hn, rfl, rfl⟩
      | cons e es =>
          obtain ⟨b, h₁, h₂⟩ := hex e
          obtain ⟨n, rfl⟩ : ∃ n', n = n' + 1 := ⟨n - 1, by omega⟩
          have hb := hk b n ⟨rfl, e, h₁⟩
          simp only [alone, h₁, h₂, Option.bind_some]
          rcases ih b hb es with ⟨hl, e₁, e₂⟩ | ⟨r, notes, hy, e₁, e₂⟩
          · refine Or.inl ⟨?_, by rw [e₁]; rfl, by rw [e₂]; rfl⟩
            simpa using hl
          · refine Or.inr ⟨r, note a :: notes, ?_, by rw [e₁]; rfl, by rw [e₂]; rfl⟩
            intro y hy'
            rcases List.mem_cons.mp hy' with rfl | hy'
            · exact hx
            · exact hy y hy'

/-! ## §3. The invariant rule. -/

/-- What the monitor states `gs` say about the calls of `c`: a call that is not
there is `idle`, every other meets its postconditions from where it stands. -/
def Tracks (M : Op → Monitor Act μ) (idle : μ) (Q : Op → α → μ → Prop) (E : Op → ε → μ → Prop)
    (c : Config Act ε α W Op) (gs : Pid → μ) : Prop :=
  ∀ p, match c.calls p with
    | none => gs p = idle
    | some t => t.rest.wp (M t.op) (Q t.op) (E t.op) (gs p)

variable {M : Op → Monitor Act μ} {idle : μ} {Q : Op → α → μ → Prop} {E : Op → ε → μ → Prop}

theorem Tracks.init (w : W) :
    Tracks M idle Q E (Config.init w : Config Act ε α W Op) fun _ => idle := fun _ => rfl

theorem Tracks.not_invoked {c : Config Act ε α W Op} {gs : Pid → μ} (h : Tracks M idle Q E c gs)
    {p : Pid} (hp : c.calls p = none) : gs p = idle := by
  have := h p
  rw [hp] at this
  exact this

theorem Tracks.wp {c : Config Act ε α W Op} {gs : Pid → μ} (h : Tracks M idle Q E c gs)
    {p : Pid} {t : Task Act ε α Op} (hp : c.calls p = some t) :
    t.rest.wp (M t.op) (Q t.op) (E t.op) (gs p) := by
  have := h p
  rw [hp] at this
  exact this

/-- A returned call stands at its postcondition. -/
theorem Tracks.returned {c : Config Act ε α W Op} {gs : Pid → μ} (h : Tracks M idle Q E c gs)
    {p : Pid} {op : Op} {a : α} (hp : c.returned p op a) : Q op a (gs p) :=
  h.wp hp

/-- A failed call stands at its exceptional postcondition. -/
theorem Tracks.failed {c : Config Act ε α W Op} {gs : Pid → μ} (h : Tracks M idle Q E c gs)
    {p : Pid} {op : Op} {e : ε} (hp : c.failed p op e) : E op e (gs p) :=
  h.wp hp

/-- A call about to act may act. -/
theorem Tracks.allow {c : Config Act ε α W Op} {gs : Pid → μ} (h : Tracks M idle Q E c gs)
    {p : Pid} {op : Op} {β : Type} {a : Act β} {k : β → Prog Act ε α}
    (hp : c.calls p = some ⟨op, .act a k⟩) : (M op).allow (gs p) a :=
  (h.wp hp).1

theorem Tracks.put {c : Config Act ε α W Op} {gs : Pid → μ} (h : Tracks M idle Q E c gs)
    (w : W) (p : Pid) (t : Task Act ε α Op) {m : μ} (ht : t.rest.wp (M t.op) (Q t.op) (E t.op) m) :
    Tracks M idle Q E (c.put w p t) (Function.update gs p m) := by
  intro q
  by_cases hq : q = p
  · subst hq
    simpa [Config.put] using ht
  · simpa [Config.put, hq] using h q

/-- The calls that survive a reboot have ended, so only their postconditions
matter. -/
theorem Tracks.killed {c : Config Act ε α W Op} {gs : Pid → μ} (h : Tracks M idle Q E c gs)
    (w : W) (settle : μ → μ) (hQ : ∀ op a m, Q op a m → Q op a (settle m))
    (hE : ∀ op e m, E op e m → E op e (settle m)) : Tracks M idle Q E (c.killed w)
      fun p => if ((c.killed w).calls p).isSome = true then settle (gs p) else idle := by
  intro q
  simp only
  split
  next hq => simp [hq]
  next t hq =>
    obtain ⟨hc, hd⟩ := Option.filter_eq_some_iff.mp hq
    have hwp := h.wp hc
    obtain ⟨op, r⟩ := t
    cases r with
    | ret a => simpa [hq] using hQ op a _ hwp
    | fail e => simpa [hq] using hE op e _ hwp
    | act a k => simp [Prog.isDone] at hd

/-- A call that survives a reboot had ended. -/
theorem Tracks.survivor {c : Config Act ε α W Op} {gs : Pid → μ} (h : Tracks M idle Q E c gs)
    {w : W} {p : Pid} (hp : ((c.killed w).calls p).isSome = true) :
    ∃ op, (∃ a, Q op a (gs p)) ∨ ∃ e, E op e (gs p) := by
  obtain ⟨⟨op, r⟩, ht⟩ := Option.isSome_iff_exists.mp hp
  obtain ⟨hc, hd⟩ := Option.filter_eq_some_iff.mp ht
  refine ⟨op, ?_⟩
  cases r with
  | ret a => exact Or.inl ⟨a, h.wp hc⟩
  | fail e => exact Or.inr ⟨e, h.wp hc⟩
  | act a k => simp [Prog.isDone] at hd

/-- A call that a reboot loses was not there, or about to act. -/
theorem Tracks.lost {c : Config Act ε α W Op} {gs : Pid → μ} (h : Tracks M idle Q E c gs)
    {w : W} {p : Pid} (hp : ((c.killed w).calls p).isSome = false) :
    gs p = idle ∨ ∃ (op : Op) (β : Type) (a : Act β), (M op).allow (gs p) a := by
  cases hc : c.calls p with
  | none => exact Or.inl (h.not_invoked hc)
  | some t =>
      obtain ⟨op, r⟩ := t
      simp only [Config.killed, hc] at hp
      cases r with
      | ret a => simp [Option.filter, Prog.isDone] at hp
      | fail e => simp [Option.filter, Prog.isDone] at hp
      | act a k => exact Or.inr ⟨op, _, a, h.allow hc⟩

/-- **THE INVARIANT RULE**, where `settle` is what a reboot makes of the monitor
state of a call that had ended. -/
theorem Reach.sound_settled (start : Op → μ) (settle : μ → μ) (Inv : W → O → (Pid → μ) → Prop)
    (hQ : ∀ op a m, Q op a m → Q op a (settle m)) (hE : ∀ op e m, E op e m → E op e (settle m))
    (body : ∀ {o w p op}, V.accepts o w p op = true →
      (S.body op).wp (M op) (Q op) (E op) (start op))
    (invoke : ∀ {w o gs p op}, Inv w o gs → gs p = idle → V.accepts o w p op = true →
      Inv w (V.onInvoke o w p op) (Function.update gs p (start op)))
    (step : ∀ {w o gs p op} {β : Type} {a : Act β} {e b w'}, Inv w o gs → (M op).allow (gs p) a →
      V.guard o w p op a e = true → S.exec p a e w = some (b, w') →
      ∃ m, (M op).next (gs p) a b m ∧ Inv w' (V.onStep o w p op a b w') (Function.update gs p m))
    (ambient : ∀ {w o gs e w'}, Inv w o gs → S.ambient e w = some w' →
      Inv w' (V.onAmbient o w w') gs)
    (reboot : ∀ {w o gs e w'} (alive : Pid → Bool), Inv w o gs → S.reboot e w = some w' →
      (∀ p, alive p = true → ∃ op, (∃ a, Q op a (gs p)) ∨ ∃ e, E op e (gs p)) →
      (∀ p, alive p = false →
        gs p = idle ∨ ∃ (op : Op) (β : Type) (a : Act β), (M op).allow (gs p) a) →
      Inv w' (V.onReboot o w w') fun p => if alive p then settle (gs p) else idle)
    {w₀ : W} {o₀ o : O} {c : Config Act ε α W Op} (h₀ : Inv w₀ o₀ fun _ => idle)
    (h : S.Reach V (Config.init w₀) o₀ c o) :
    ∃ gs, Inv c.world o gs ∧ Tracks M idle Q E c gs := by
  induction h with
  | refl => exact ⟨_, h₀, Tracks.init w₀⟩
  | invoke _ hp ha ih =>
      obtain ⟨gs, hI, hT⟩ := ih
      exact ⟨_, invoke hI (hT.not_invoked hp) ha, hT.put _ _ _ (body ha)⟩
  | step _ hp hg hx ih =>
      obtain ⟨gs, hI, hT⟩ := ih
      obtain ⟨m, hm, hI'⟩ := step hI (hT.allow hp) hg hx
      exact ⟨_, hI', hT.put _ _ _ ((hT.wp hp).2 _ _ hm)⟩
  | ambient _ hw ih =>
      obtain ⟨gs, hI, hT⟩ := ih
      exact ⟨gs, ambient hI hw, hT⟩
  | @reboot c o e w' _ hw ih =>
      obtain ⟨gs, hI, hT⟩ := ih
      exact ⟨_, reboot (fun p => ((c.killed w').calls p).isSome) hI hw
        (fun p hp => hT.survivor hp) (fun p hp => hT.lost hp), hT.killed w' settle hQ hE⟩

/-- **THE INVARIANT RULE.**  Give every call a monitor state.  If every
operation meets its monitor from its start state, and every invocation, every
allowed action and every step of the surroundings preserves `Inv`, then in
every configuration reached there are monitor states satisfying `Inv` that the
code of every call respects. -/
theorem Reach.sound (start : Op → μ) (Inv : W → O → (Pid → μ) → Prop)
    (body : ∀ {o w p op}, V.accepts o w p op = true →
      (S.body op).wp (M op) (Q op) (E op) (start op))
    (invoke : ∀ {w o gs p op}, Inv w o gs → gs p = idle → V.accepts o w p op = true →
      Inv w (V.onInvoke o w p op) (Function.update gs p (start op)))
    (step : ∀ {w o gs p op} {β : Type} {a : Act β} {e b w'}, Inv w o gs → (M op).allow (gs p) a →
      V.guard o w p op a e = true → S.exec p a e w = some (b, w') →
      ∃ m, (M op).next (gs p) a b m ∧ Inv w' (V.onStep o w p op a b w') (Function.update gs p m))
    (ambient : ∀ {w o gs e w'}, Inv w o gs → S.ambient e w = some w' →
      Inv w' (V.onAmbient o w w') gs)
    (reboot : ∀ {w o gs e w'} (alive : Pid → Bool), Inv w o gs → S.reboot e w = some w' →
      (∀ p, alive p = true → ∃ op, (∃ a, Q op a (gs p)) ∨ ∃ e, E op e (gs p)) →
      (∀ p, alive p = false →
        gs p = idle ∨ ∃ (op : Op) (β : Type) (a : Act β), (M op).allow (gs p) a) →
      Inv w' (V.onReboot o w w') fun p => if alive p then gs p else idle)
    {w₀ : W} {o₀ o : O} {c : Config Act ε α W Op} (h₀ : Inv w₀ o₀ fun _ => idle)
    (h : S.Reach V (Config.init w₀) o₀ c o) :
    ∃ gs, Inv c.world o gs ∧ Tracks M idle Q E c gs :=
  Reach.sound_settled start id Inv (fun _ _ _ hq => hq) (fun _ _ _ he => he) body invoke step
    ambient reboot h₀ h

end System

end

end MinePanel.Lib
