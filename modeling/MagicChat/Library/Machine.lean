import Mathlib.Data.List.Induction

/-!
# Machines

A *machine* is a deterministic labelled transition system: all the
nondeterminism of the modelled program (which callback comes next, how a
remote write ends, which fresh name is drawn) is in the actions, and the step
is a partial function, `none` where the action is not enabled.

* Its runs are the lists of actions it can take (`exec`); from any state,
  `execFrom`.
* A condition on the steps of a run (`Along`) is a condition on the action and
  the state *before* it: which steps were taken, never what they led to.
* An invariant is proved once from the initial state and a step
  (`Along.invariant`); a run is analysed action by action from its end
  (`exec_induction`).
* From a state, the machine can be led to others (`Leads`).
* What the steps of a run bring forth is collected along it (`collect`).
* A machine built over another one projects onto it (`Projection`), and its
  runs onto the runs of the other.
-/

/-- A machine on the states `σ`, driven by the actions `α`. -/
structure Machine (σ α : Type*) where
  /-- The initial state. -/
  init : σ
  /-- The state after an action, if it is enabled. -/
  step : σ → α → Option σ

namespace Machine

variable {σ α : Type*} (M : Machine σ α)

/-! ## Runs -/

/-- The state after the actions `as` from `s`, if each is enabled in turn. -/
def execFrom (s : σ) (as : List α) : Option σ := as.foldlM M.step s

/-- The state after the actions `as` from the initial state. -/
def exec (as : List α) : Option σ := M.execFrom M.init as

/-- The states at the end of a run. -/
def Reachable (s : σ) : Prop := ∃ as, M.exec as = some s

variable {M}

@[simp] theorem execFrom_nil {s : σ} : M.execFrom s [] = some s := rfl

@[simp] theorem execFrom_cons {s : σ} {a : α} {as : List α} :
    M.execFrom s (a :: as) = (M.step s a).bind fun t => M.execFrom t as := rfl

@[simp] theorem exec_nil : M.exec [] = some M.init := rfl

theorem execFrom_append {s : σ} {as bs : List α} :
    M.execFrom s (as ++ bs) = (M.execFrom s as).bind fun t => M.execFrom t bs :=
  List.foldlM_append ..

theorem execFrom_append_eq_some {s t : σ} {as bs : List α} :
    M.execFrom s (as ++ bs) = some t ↔
      ∃ r, M.execFrom s as = some r ∧ M.execFrom r bs = some t := by
  rw [execFrom_append, Option.bind_eq_some_iff]

theorem exec_append_eq_some {t : σ} {as bs : List α} :
    M.exec (as ++ bs) = some t ↔ ∃ s, M.exec as = some s ∧ M.execFrom s bs = some t :=
  execFrom_append_eq_some

theorem execFrom_singleton {s : σ} {a : α} : M.execFrom s [a] = M.step s a := by
  simp

theorem exec_concat_eq_some {t : σ} {as : List α} {a : α} :
    M.exec (as ++ [a]) = some t ↔ ∃ s, M.exec as = some s ∧ M.step s a = some t := by
  simp only [exec_append_eq_some, execFrom_singleton]

theorem Reachable.init : M.Reachable M.init := ⟨[], rfl⟩

theorem Reachable.step {s t : σ} {a : α} (hs : M.Reachable s) (h : M.step s a = some t) :
    M.Reachable t := by
  obtain ⟨as, has⟩ := hs
  exact ⟨as ++ [a], exec_concat_eq_some.2 ⟨s, has, h⟩⟩

variable (M) in
/-- A run leads from `s` to `t`. -/
def Leads (s t : σ) : Prop := ∃ as, M.execFrom s as = some t

theorem Leads.refl (s : σ) : M.Leads s s := ⟨[], rfl⟩

theorem Leads.of_step {s t : σ} {a : α} (h : M.step s a = some t) : M.Leads s t :=
  ⟨[a], execFrom_singleton.trans h⟩

theorem Leads.trans {r s t : σ} (h : M.Leads r s) (h' : M.Leads s t) : M.Leads r t := by
  obtain ⟨as, has⟩ := h
  obtain ⟨bs, hbs⟩ := h'
  exact ⟨as ++ bs, execFrom_append_eq_some.2 ⟨s, has, hbs⟩⟩

theorem Reachable.leads {s t : σ} (hs : M.Reachable s) (h : M.Leads s t) : M.Reachable t := by
  obtain ⟨as, has⟩ := hs
  obtain ⟨bs, hbs⟩ := h
  exact ⟨as ++ bs, exec_append_eq_some.2 ⟨s, has, hbs⟩⟩

/-- A run is analysed from its end: it is empty, or a run and one more step. -/
theorem exec_induction {motive : List α → σ → Prop} (nil : motive [] M.init)
    (concat : ∀ as s a t, M.exec as = some s → motive as s → M.step s a = some t →
      motive (as ++ [a]) t) {as : List α} {s : σ} (h : M.exec as = some s) : motive as s := by
  induction as using List.reverseRecOn generalizing s with
  | nil => exact Option.some.inj h ▸ nil
  | append_singleton as a ih =>
    obtain ⟨r, hr, hs⟩ := exec_concat_eq_some.1 h
    exact concat as r a s hr (ih hr) hs

/-- A property kept by the actions of a kind is kept by a run of such actions. -/
theorem execFrom_invariant {I : σ → Prop} {P : α → Prop}
    (hstep : ∀ s a t, P a → I s → M.step s a = some t → I t) {s t : σ} {as : List α}
    (hP : ∀ a ∈ as, P a) (h : M.execFrom s as = some t) (hs : I s) : I t := by
  induction as generalizing s with
  | nil => exact Option.some.inj h ▸ hs
  | cons a as ih =>
    obtain ⟨r, hr, ht⟩ := Option.bind_eq_some_iff.1 h
    exact ih (fun b hb => hP b (List.mem_cons_of_mem _ hb)) ht
      (hstep s a r (hP a List.mem_cons_self) hs hr)

/-- An invariant: initial, and kept by the steps from the reachable states. -/
theorem Reachable.invariant {I : σ → Prop} (init : I M.init)
    (step : ∀ s a t, M.Reachable s → I s → M.step s a = some t → I t) {s : σ}
    (h : M.Reachable s) : I s := by
  obtain ⟨as, has⟩ := h
  exact exec_induction (motive := fun _ s => I s) init
    (fun as s a t hr hi ht => step s a t ⟨as, hr⟩ hi ht) has

/-! ## Conditions on the steps of a run -/

variable (M) in
/-- Every step of the run `as` meets the condition `C`, on the state before
    the step and its action. -/
def Along (C : σ → α → Prop) (as : List α) : Prop :=
  ∀ p a, p ++ [a] <+: as → ∀ s, M.exec p = some s → C s a

theorem along_nil {C : σ → α → Prop} : M.Along C [] := fun p a h =>
  absurd (List.prefix_nil.1 h) (by simp)

theorem along_concat {C : σ → α → Prop} {as : List α} {a : α} :
    M.Along C (as ++ [a]) ↔ M.Along C as ∧ ∀ s, M.exec as = some s → C s a := by
  constructor
  · exact fun h => ⟨fun p b hp => h p b (hp.trans (List.prefix_append _ _)),
      h as a List.prefix_rfl⟩
  · rintro ⟨h, ha⟩ p b hp
    rcases List.prefix_concat_iff.1 hp with he | hp'
    · obtain ⟨rfl, hb⟩ := List.append_inj' he rfl
      rw [List.singleton_inj.1 hb]
      exact ha
    · exact h p b hp'

theorem Along.mono {C D : σ → α → Prop} (hCD : ∀ s a, C s a → D s a) {as : List α}
    (h : M.Along C as) : M.Along D as := fun p a hp s hs => hCD s a (h p a hp s hs)

theorem Along.of_isPrefix {C : σ → α → Prop} {as bs : List α} (h : M.Along C bs)
    (hp : as <+: bs) : M.Along C as := fun p a ha => h p a (ha.trans hp)

theorem Along.and {C D : σ → α → Prop} {as : List α} (hC : M.Along C as) (hD : M.Along D as) :
    M.Along (fun s a => C s a ∧ D s a) as := fun p a hp s hs => ⟨hC p a hp s hs, hD p a hp s hs⟩

/-- A run not along a condition has a step that breaks it. -/
theorem exists_of_not_along {C : σ → α → Prop} {as : List α} {t : σ} (h : M.exec as = some t)
    (hC : ¬M.Along C as) :
    ∃ s a r bs, M.Reachable s ∧ a ∈ as ∧ ¬C s a ∧ M.step s a = some r ∧ bs ⊆ as ∧
      M.execFrom r bs = some t := by
  simp only [Along, not_forall] at hC
  obtain ⟨p, a, ⟨bs, rfl⟩, s, hs, hbreak⟩ := hC
  obtain ⟨r, hr, ht⟩ := exec_append_eq_some.1 h
  obtain ⟨s', hs', hr⟩ := exec_concat_eq_some.1 hr
  obtain rfl : s = s' := Option.some.inj (hs.symm.trans hs')
  exact ⟨s, a, r, bs, ⟨p, hs⟩, by simp, hbreak, hr, List.subset_append_right _ _, ht⟩

/-- A condition on the actions alone is met along a run all of whose actions meet it. -/
theorem along_of_forall {P : α → Prop} {as : List α} (h : ∀ a ∈ as, P a) :
    M.Along (fun _ a => P a) as := fun p a hp _ _ =>
  h a (hp.subset (List.mem_append_right p (List.mem_singleton_self a)))

variable (M) in
/-- `Along`, read from the first action of a run. -/
def AlongFrom (C : σ → α → Prop) : σ → List α → Prop
  | _, [] => True
  | s, a :: as => C s a ∧ ∀ t, M.step s a = some t → AlongFrom C t as

theorem AlongFrom.cons {C : σ → α → Prop} {s t : σ} {a : α} {as : List α} (hC : C s a)
    (ht : M.step s a = some t) (h : M.AlongFrom C t as) : M.AlongFrom C s (a :: as) :=
  ⟨hC, fun _ hr => Option.some.inj (ht.symm.trans hr) ▸ h⟩

theorem alongFrom_iff {C : σ → α → Prop} {s : σ} {as : List α} :
    M.AlongFrom C s as ↔ ∀ p a, p ++ [a] <+: as → ∀ t, M.execFrom s p = some t → C t a := by
  induction as generalizing s with
  | nil => exact ⟨fun _ p a h => absurd (List.prefix_nil.1 h) (by simp), fun _ => trivial⟩
  | cons b as ih =>
    constructor
    · rintro ⟨hb, h⟩ (_ | ⟨c, p⟩) a hp t ht
      · obtain rfl : a = b := (List.cons_prefix_cons.1 hp).1
        exact Option.some.inj ht ▸ hb
      · obtain ⟨rfl, htail⟩ := List.cons_prefix_cons.1 hp
        obtain ⟨r, hr, ht⟩ := Option.bind_eq_some_iff.1 ht
        exact ih.1 (h r hr) p a htail t ht
    · refine fun h => ⟨h [] b (List.prefix_append [b] as) s rfl, fun r hr => ih.2 ?_⟩
      intro p a hp t ht
      refine h (b :: p) a (List.cons_prefix_cons.2 ⟨rfl, hp⟩) t ?_
      rw [execFrom_cons, hr, Option.bind_some, ht]

/-- A run is along a condition if its steps meet it one after the other. -/
theorem along_iff_alongFrom {C : σ → α → Prop} {as : List α} :
    M.Along C as ↔ M.AlongFrom C M.init as := alongFrom_iff.symm

/-- A run along a condition is analysed from its end. -/
theorem Along.induction {C : σ → α → Prop} {motive : List α → σ → Prop} (nil : motive [] M.init)
    (concat : ∀ as s a t, M.exec as = some s → motive as s → C s a → M.step s a = some t →
      motive (as ++ [a]) t) {as : List α} {s : σ} (hC : M.Along C as)
    (h : M.exec as = some s) : motive as s := by
  refine exec_induction (motive := fun as s => M.Along C as → motive as s) (fun _ => nil) ?_ h hC
  intro as s a t hs ih ht hC
  obtain ⟨hC, ha⟩ := along_concat.1 hC
  exact concat as s a t hs (ih hC) (ha s hs) ht

/-- An invariant of the runs along a condition: initial, and kept by the steps
    that meet the condition, from the reachable states. -/
theorem Along.invariant {C : σ → α → Prop} {I : σ → Prop} (init : I M.init)
    (step : ∀ s a t, M.Reachable s → I s → C s a → M.step s a = some t → I t)
    {as : List α} {s : σ} (hC : M.Along C as) (h : M.exec as = some s) : I s :=
  hC.induction (motive := fun _ s => I s) init
    (fun as s a t hr hi ha ht => step s a t ⟨as, hr⟩ hi ha ht) h

/-- The states along a run: those at the end of its prefixes. -/
theorem exec_of_isPrefix {as bs : List α} {t : σ} (h : M.exec bs = some t) (hp : as <+: bs) :
    ∃ s, M.exec as = some s := by
  obtain ⟨cs, rfl⟩ := hp
  obtain ⟨s, hs, _⟩ := exec_append_eq_some.1 h
  exact ⟨s, hs⟩

/-- What goes on from a run is analysed from its end, up to that run. -/
theorem exec_induction_from {motive : List α → σ → Prop} {as cs : List α} {s t : σ}
    (start : motive as s)
    (concat : ∀ bs r a r', as <+: bs → bs ++ [a] <+: cs → M.exec bs = some r → motive bs r →
      M.step r a = some r' → motive (bs ++ [a]) r')
    (hp : as <+: cs) (hs : M.exec as = some s) (ht : M.exec cs = some t) : motive cs t := by
  obtain ⟨bs, rfl⟩ := hp
  induction bs using List.reverseRecOn generalizing t with
  | nil =>
    rw [List.append_nil] at ht ⊢
    exact Option.some.inj (hs.symm.trans ht) ▸ start
  | append_singleton bs a ih =>
    rw [← List.append_assoc] at ht concat ⊢
    obtain ⟨r, hr, ht⟩ := exec_concat_eq_some.1 ht
    refine concat (as ++ bs) r a t (List.prefix_append as bs) List.prefix_rfl hr (ih ?_ hr) ht
    exact fun bs' r a r' hp hp' => concat bs' r a r' hp (hp'.trans (List.prefix_append _ _))

/-- What each step does to a state, transitively, a run does from any of its
    states to its end. -/
theorem rel_of_isPrefix {R : σ → σ → Prop} (refl : ∀ s, R s s)
    (trans : ∀ r s t, R r s → R s t → R r t)
    (step : ∀ s a t, M.Reachable s → M.step s a = some t → R s t) {as bs : List α} {s t : σ}
    (hp : as <+: bs) (hs : M.exec as = some s) (ht : M.exec bs = some t) : R s t :=
  exec_induction_from (motive := fun _ t => R s t) (refl s)
    (fun bs r a t _ _ hr hsr hrt => trans s r t hsr (step r a t ⟨bs, hr⟩ hrt)) hp hs ht

/-! ## What a run brings forth -/

variable (M) in
/-- What `f` reads off the steps of the actions `as` from `s`, in turn. -/
def collectFrom {β : Type*} (f : σ → α → List β) : σ → List α → List β
  | _, [] => []
  | s, a :: as => f s a ++ (M.step s a).elim [] fun t => collectFrom f t as

variable (M) in
/-- What `f` reads off the steps of a run, in turn. -/
def collect {β : Type*} (f : σ → α → List β) (as : List α) : List β :=
  M.collectFrom f M.init as

@[simp] theorem collect_nil {β : Type*} {f : σ → α → List β} : M.collect f [] = [] := rfl

theorem collectFrom_concat {β : Type*} {f : σ → α → List β} {r s : σ} {as : List α} {a : α}
    (h : M.execFrom r as = some s) :
    M.collectFrom f r (as ++ [a]) = M.collectFrom f r as ++ f s a := by
  induction as generalizing r with
  | nil =>
    obtain rfl := Option.some.inj h
    cases hstep : M.step r a <;> simp [collectFrom, hstep]
  | cons b as ih =>
    obtain ⟨r', hr', h⟩ := Option.bind_eq_some_iff.1 h
    simp only [List.cons_append, collectFrom, hr', Option.elim_some, ih h, List.append_assoc]

theorem collect_concat {β : Type*} {f : σ → α → List β} {s : σ} {as : List α} {a : α}
    (h : M.exec as = some s) : M.collect f (as ++ [a]) = M.collect f as ++ f s a :=
  collectFrom_concat h

/-- What is collected along a run comes first along the runs that go on from it. -/
theorem collect_isPrefix {β : Type*} {f : σ → α → List β} {as bs : List α} {s t : σ}
    (hp : as <+: bs) (hs : M.exec as = some s) (ht : M.exec bs = some t) :
    M.collect f as <+: M.collect f bs := by
  refine exec_induction_from (motive := fun bs _ => M.collect f as <+: M.collect f bs)
    List.prefix_rfl (fun bs r a t _ _ hr ih _ => ?_) hp hs ht
  rw [collect_concat hr]
  exact ih.trans (List.prefix_append _ _)

/-- What is collected first along a run is collected in one of its steps, and before. -/
theorem exists_of_isPrefix_collect {β : Type*} {f : σ → α → List β} {q : List β} {x : β}
    {as : List α} {t : σ} (h : M.exec as = some t) (hq : q ++ [x] <+: M.collect f as) :
    ∃ p a s l, p ++ [a] <+: as ∧ M.exec p = some s ∧ l ++ [x] <+: f s a ∧
      q = M.collect f p ++ l := by
  refine exec_induction (motive := fun as _ => q ++ [x] <+: M.collect f as →
    ∃ p a s l, p ++ [a] <+: as ∧ M.exec p = some s ∧ l ++ [x] <+: f s a ∧
      q = M.collect f p ++ l) ?_ ?_ h hq
  · exact fun hq => absurd (List.prefix_nil.1 hq) (by simp)
  · intro as s a t hs ih _ hq
    rw [collect_concat hs] at hq
    by_cases hlength : q.length < (M.collect f as).length
    · have hbefore : q ++ [x] <+: M.collect f as :=
        List.prefix_of_prefix_length_le hq (List.prefix_append _ _)
          (by rw [List.length_append]; exact hlength)
      obtain ⟨p, b, r, l, hp, hrest⟩ := ih hbefore
      exact ⟨p, b, r, l, hp.trans (List.prefix_append _ _), hrest⟩
    · have hcollected : M.collect f as <+: q :=
        List.prefix_of_prefix_length_le (List.prefix_append _ _)
          ((List.prefix_append q [x]).trans hq) (Nat.not_lt.1 hlength)
      obtain ⟨l, rfl⟩ := hcollected
      rw [List.append_assoc, List.prefix_append_right_inj] at hq
      exact ⟨as, a, s, l, List.prefix_rfl, hs, hq, rfl⟩

/-- What is collected along a run is collected in one of its steps. -/
theorem exists_of_mem_collect {β : Type*} {f : σ → α → List β} {x : β} {as : List α} {t : σ}
    (h : M.exec as = some t) (hx : x ∈ M.collect f as) :
    ∃ p a s, p ++ [a] <+: as ∧ M.exec p = some s ∧ x ∈ f s a := by
  obtain ⟨q, r, hq⟩ := List.append_of_mem hx
  obtain ⟨p, a, s, l, hp, hs, hl, _⟩ := exists_of_isPrefix_collect h (x := x) (q := q)
    ⟨r, by rw [hq, List.append_assoc, List.singleton_append]⟩
  exact ⟨p, a, s, hp, hs, hl.subset (List.mem_append_right l (List.mem_singleton_self x))⟩

/-- A run whose steps are runs of another machine, one after the other. -/
theorem exec_collect {τ β : Type*} {N : Machine τ β} (onState : σ → τ) {f : σ → α → List β}
    (init : onState M.init = N.init)
    (step : ∀ s a t, M.step s a = some t → N.execFrom (onState s) (f s a) = some (onState t))
    {as : List α} {s : σ} (h : M.exec as = some s) :
    N.exec (M.collect f as) = some (onState s) := by
  refine exec_induction (motive := fun as s => N.exec (M.collect f as) = some (onState s))
    (congrArg some init.symm) (fun as s a t hs ih ht => ?_) h
  rw [collect_concat hs]
  exact exec_append_eq_some.2 ⟨onState s, ih, step s a t ht⟩

/-! ## Projections -/

/-- A projection of the machine `M` onto the machine `N`: each step of `M` is
    a run of `N`, the empty one where `N` does not move. -/
structure Projection {τ β : Type*} (M : Machine σ α) (N : Machine τ β) where
  /-- The state of `N` within a state of `M`. -/
  onState : σ → τ
  init : onState M.init = N.init
  step : ∀ s a t, M.step s a = some t → N.Leads (onState s) (onState t)

/-- The reachable states of a machine project onto reachable states of the other. -/
theorem Projection.reachable {τ β : Type*} {N : Machine τ β} (π : Projection M N) {s : σ}
    (h : M.Reachable s) : N.Reachable (π.onState s) := by
  refine h.invariant (I := fun s => N.Reachable (π.onState s)) ?_ fun s a t _ hs ht => ?_
  · rw [π.init]
    exact .init
  · exact hs.leads (π.step s a t ht)

end Machine
