/-!
# Programs that may stop, and their triples

A program reads and writes one state and ends with a value or with a reason
for stopping. `Triple m s Q E` is the total statement about one run: from `s`
the program ends with a value and a state satisfying `Q`, or stops for a
reason satisfying `E`. The rules below take a program apart along its binds,
so a caller cites a callee's triple and never unfolds the callee.
-/

namespace Lib

/-- A program over a state `σ` that returns an `α` or stops with an `ε`. -/
abbrev Program (σ ε α : Type) := StateT σ (Except ε) α

def Triple (m : Program σ ε α) (s : σ) (Q : α → σ → Prop) (E : ε → Prop) : Prop :=
  match m s with
  | .ok (a, s') => Q a s'
  | .error e => E e

def Never (_ : ε) : Prop := False

namespace Triple

variable {σ ε α β : Type} {P Q : α → σ → Prop} {R : β → σ → Prop} {D E : ε → Prop} {s s' : σ}

theorem of_run {m : Program σ ε α} (h : m s = .ok (a, s')) (hq : Q a s') : Triple m s Q E := by
  simp only [Triple, h, hq]

theorem of_stop {m : Program σ ε α} (h : m s = .error e) (he : E e) : Triple m s Q E := by
  simp only [Triple, h, he]

theorem run {m : Program σ ε α} (h : Triple m s Q Never) :
    ∃ a s', m s = .ok (a, s') ∧ Q a s' := by
  unfold Triple at h
  cases hm : m s with
  | ok r => rw [hm] at h; exact ⟨r.1, r.2, rfl, h⟩
  | error e => rw [hm] at h; exact h.elim

theorem post {m : Program σ ε α} (h : Triple m s Q E) (hm : m s = .ok (a, s')) : Q a s' := by
  simpa only [Triple, hm] using h

theorem stop {m : Program σ ε α} (h : Triple m s Q E) (hm : m s = .error e) : E e := by
  simpa only [Triple, hm] using h

theorem mono {m : Program σ ε α} (h : Triple m s P D) (hq : ∀ a s', P a s' → Q a s')
    (he : ∀ e, D e → E e) : Triple m s Q E := by
  unfold Triple at *
  cases hm : m s with
  | ok r => rw [hm] at h; exact hq _ _ h
  | error e => rw [hm] at h; exact he _ h

theorem weaken {m : Program σ ε α} (h : Triple m s P E) (hq : ∀ a s', P a s' → Q a s') :
    Triple m s Q E :=
  h.mono hq fun _ h => h

theorem and {m : Program σ ε α} (h : Triple m s P E) (h' : Triple m s Q E) :
    Triple m s (fun a s' => P a s' ∧ Q a s') E := by
  unfold Triple at *
  cases hm : m s with
  | ok r => rw [hm] at h h'; exact ⟨h, h'⟩
  | error e => rw [hm] at h; exact h

theorem pure (h : Q a s) : Triple (Pure.pure a : Program σ ε α) s Q E := h

theorem bind {m : Program σ ε α} {f : α → Program σ ε β} (hm : Triple m s P E)
    (hf : ∀ a s', P a s' → Triple (f a) s' R E) : Triple (m >>= f) s R E := by
  unfold Triple at hm
  cases h : m s with
  | ok r =>
    rw [h] at hm
    have hr := hf _ _ hm
    simpa only [Triple, Bind.bind, StateT.bind, Except.bind, h] using hr
  | error e =>
    rw [h] at hm
    simpa only [Triple, Bind.bind, StateT.bind, Except.bind, h] using hm

theorem get_bind {f : σ → Program σ ε β} (h : Triple (f s) s R E) :
    Triple (MonadState.get >>= f) s R E := h

theorem set_bind {f : PUnit → Program σ ε β} (h : Triple (f ⟨⟩) s' R E) :
    Triple (MonadStateOf.set s' >>= f) s R E := h

theorem modify_bind {g : σ → σ} {f : PUnit → Program σ ε β} (h : Triple (f ⟨⟩) (g s) R E) :
    Triple (modify g >>= f) s R E := h

theorem named_bind {m : Program σ ε α} {f : α → Program σ ε β}
    (hf : ∀ a s', m s = .ok (a, s') → Triple (f a) s' R E) (he : ∀ e, m s = .error e → E e) :
    Triple (m >>= f) s R E := by
  refine bind (P := fun a s' => m s = .ok (a, s')) ?_ hf
  unfold Triple
  split
  · assumption
  · exact he _ ‹_›

theorem throw (h : E e) : Triple (MonadExcept.throw e : Program σ ε α) s Q E := h

theorem ite {c : Prop} [Decidable c] {m n : Program σ ε α} (hm : c → Triple m s Q E)
    (hn : ¬c → Triple n s Q E) : Triple (if c then m else n) s Q E := by
  split
  · exact hm ‹_›
  · exact hn ‹_›

end Triple

-- ---------------------------------------------------------------------------
-- Two runs side by side
-- ---------------------------------------------------------------------------

/-- Both programs end, with results and states related by `Q`. -/
def Agree (m : Program σ ε α) (s : σ) (m' : Program σ ε β) (s' : σ) (Q : α → σ → β → σ → Prop) :
    Prop :=
  ∃ a t b t', m s = .ok (a, t) ∧ m' s' = .ok (b, t') ∧ Q a t b t'

namespace Agree

variable {m : Program σ ε α} {m' : Program σ ε β} {s s' : σ} {Q : α → σ → β → σ → Prop}

theorem of_triples {P : α → σ → Prop} {P' : β → σ → Prop} (h : Triple m s P Never)
    (h' : Triple m' s' P' Never) (hq : ∀ a t b t', P a t → P' b t' → Q a t b t') :
    Agree m s m' s' Q := by
  obtain ⟨a, t, hm, hp⟩ := h.run
  obtain ⟨b, t', hm', hp'⟩ := h'.run
  exact ⟨a, t, b, t', hm, hm', hq a t b t' hp hp'⟩

theorem pure (h : Q a s b s') :
    Agree (Pure.pure a : Program σ ε α) s (Pure.pure b : Program σ ε β) s' Q :=
  ⟨a, s, b, s', rfl, rfl, h⟩

theorem bind {f : α → Program σ ε γ} {f' : β → Program σ ε δ} {R : γ → σ → δ → σ → Prop}
    (h : Agree m s m' s' Q) (hf : ∀ a t b t', Q a t b t' → Agree (f a) t (f' b) t' R) :
    Agree (m >>= f) s (m' >>= f') s' R := by
  obtain ⟨a, t, b, t', hm, hm', hq⟩ := h
  obtain ⟨c, u, d, u', hc, hd, hr⟩ := hf a t b t' hq
  refine ⟨c, u, d, u', ?_, ?_, hr⟩
  · simpa only [Bind.bind, StateT.bind, Except.bind, hm] using hc
  · simpa only [Bind.bind, StateT.bind, Except.bind, hm'] using hd

end Agree

/-- Two programs from two states: they end alike, with the same value in states
related by `R`, or for the same reason. -/
def Lockstep (R : σ → σ → Prop) (m : Program σ ε α) (s : σ) (m' : Program σ ε α) (t : σ) : Prop :=
  match m s with
  | .ok (a, s') => ∃ t', m' t = .ok (a, t') ∧ R s' t'
  | .error e => m' t = .error e

namespace Lockstep

variable {m m' n n' : Program σ ε α} {R S : σ → σ → Prop} {s s' t t' : σ}

theorem pure (h : R s t) :
    Lockstep R (Pure.pure a : Program σ ε α) s (Pure.pure a : Program σ ε α) t := ⟨t, rfl, h⟩

theorem throw : Lockstep R (MonadExcept.throw e : Program σ ε α) s
    (MonadExcept.throw e : Program σ ε α) t := rfl

theorem run (h : Lockstep R m s m' t) (hm : m s = .ok (a, s')) : ∃ t', m' t = .ok (a, t') ∧ R s' t' := by
  simpa only [Lockstep, hm] using h

theorem refl (hR : ∀ s, R s s) : Lockstep R m s m s := by
  unfold Lockstep
  cases hm : m s with
  | ok r => exact ⟨r.2, rfl, hR r.2⟩
  | error e => rfl

theorem bind {f f' : α → Program σ ε β} (h : Lockstep R m s m' t)
    (hf : ∀ a s' t', R s' t' → Lockstep S (f a) s' (f' a) t') :
    Lockstep S (m >>= f) s (m' >>= f') t := by
  unfold Lockstep at h
  cases hm : m s with
  | ok r =>
    rw [hm] at h
    obtain ⟨t', ht, hr⟩ := h
    have hrest := hf r.1 r.2 t' hr
    simpa only [Lockstep, Bind.bind, StateT.bind, Except.bind, hm, ht] using hrest
  | error e =>
    rw [hm] at h
    have ht : m' t = .error e := h
    simp only [Lockstep, Bind.bind, StateT.bind, Except.bind, hm, ht]

theorem get_bind {f f' : σ → Program σ ε β} (h : Lockstep R (f s) s (f' t) t) :
    Lockstep R (MonadState.get >>= f) s (MonadState.get >>= f') t := h

theorem set_bind {f f' : PUnit → Program σ ε β} (h : Lockstep R (f ⟨⟩) s' (f' ⟨⟩) t') :
    Lockstep R (MonadStateOf.set s' >>= f) s (MonadStateOf.set t' >>= f') t := h

theorem modify_bind {g g' : σ → σ} {f f' : PUnit → Program σ ε β}
    (h : Lockstep R (f ⟨⟩) (g s) (f' ⟨⟩) (g' t)) :
    Lockstep R (modify g >>= f) s (modify g' >>= f') t := h

theorem ite {c : Prop} [Decidable c] (hm : c → Lockstep R m s m' t)
    (hn : ¬c → Lockstep R n s n' t) :
    Lockstep R (if c then m else n) s (if c then m' else n') t := by
  split
  · exact hm ‹_›
  · exact hn ‹_›

end Lockstep

def zoom (get : σ → τ) (put : τ → σ → σ) (m : Program τ ε α) : Program σ ε α := fun s =>
  match m (get s) with
  | .ok (a, t) => .ok (a, put t s)
  | .error e => .error e

theorem Triple.zoom {get : σ → τ} {put : τ → σ → σ} {m : Program τ ε α}
    (h : Triple m (get s) (fun a t => Q a (put t s)) E) : Triple (Lib.zoom get put m) s Q E := by
  unfold Triple at h
  unfold Triple Lib.zoom
  cases hm : m (get s) with
  | ok r => rw [hm] at h; exact h
  | error e => rw [hm] at h; exact h

end Lib
