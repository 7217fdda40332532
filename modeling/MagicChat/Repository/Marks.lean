import MagicChat.Repository.Changes

/-!
# What a call marks

One call to `markMessagesRead`, from its snapshot of the conversation to the end
of its writes, while any other steps of the repository come in between. Apart
from what these write, the call changes nothing but the read flags of messages
of the snapshot that are from another user (`MarkedBy`).

It should change those of all of them (`MarksExactly`). But the loop over the
snapshot returns at the first record without a sender: the ones after it are
left, so that the call does so if and only if all the messages of others that
are unread come before any such record (`marksExactly_iff`).
-/

namespace MagicChat

/-- The database after several writes. -/
def Database.afterAll (db : Database) (ws : List Write) : Database := ws.foldl Database.after db

/-- The record is from another user. -/
def FromOther (u : UserID) (v : Value) : Prop := ∃ f, v.fromID = some f ∧ f ≠ u

/-- `db` is `base`, with the messages of `content` that are from another user than
    `u` marked as read, and nothing else changed. -/
structure Marked (u : UserID) (L : Key) (content : Keyed Key Value) (base db : Database) :
    Prop where
  read : ∀ e ∈ content, FromOther u e.2 → (db.message ⟨L, e.1⟩).bind Value.isRead = some true
  fields : ∀ ref v, base.message ref = some v → ∃ v', db.message ref = some v' ∧ SameRecord v v'
  others : ∀ ref, (∀ e ∈ content, FromOther u e.2 → ref ≠ ⟨L, e.1⟩) →
    db.message ref = base.message ref
  pointers : db.users = base.users

namespace Repository

/-- The action fires a callback of the call `i`. -/
def Action.resumes (i : ℕ) : Action → Bool
  | .resume j _ => j = i
  | _ => false

/-- The writes of a run, each with whether the call `i` makes it. -/
def writes (i : ℕ) : Repository → List Action → List (Bool × Write)
  | _, [] => []
  | s, a :: as =>
    (s.write? a).toList.map (fun w => (a.resumes i, w)) ++
      match step s a with
      | some t => writes i t as
      | none => []

/-- The writes of a run that the call `i` does not make. -/
def otherWrites (i : ℕ) (s : Repository) (as : List Action) : List Write :=
  ((writes i s as).filter fun e => !e.1).map Prod.snd

/-- The run from `s` to `t` starts with the snapshot of the call `i`, and takes it
    to the end of its writes, all of which are applied; no other call stores a
    record where `s` has one. -/
structure Completes (s : Repository) (i : ℕ) (u : UserID) (L : Key) (as : List Action)
    (t : Repository) : Prop where
  run : machine.execFrom s as = some t
  snapshot : ∃ id rest, as = .resume i (.snapshot id) :: rest
  done : t.At i (.markWrites u L [])
  applied : .resume i (.write false) ∉ as
  stores : ∀ ref values, .setMessage ref values ∈ otherWrites i s as → s.db.message ref = none

/-- From its snapshot on, the call `i` of `u` marks the messages of others, and
    changes nothing else, whatever other calls do in between. -/
def MarksExactly (s : Repository) (i : ℕ) (u : UserID) (L : Key) : Prop :=
  ∀ as t, Completes s i u L as t →
    Marked u L (s.db.conversations L) (s.db.afterAll (otherWrites i s as)) t.db

end Repository

/-! ## The messages marked -/

/-- The loop goes on to the first record without a sender. -/
theorem keysToMark_eq (u : UserID) (content : Keyed Key Value) :
    keysToMark u content = ((content.takeWhile fun e => e.2.fromID.isSome).filter
      fun e => e.2.fromID ≠ some u).map Prod.fst := by
  induction content with
  | nil => rfl
  | cons e content ih =>
    obtain ⟨key, v⟩ := e
    rw [keysToMark]
    cases hv : v.fromID with
    | none => simp [hv]
    | some f =>
      by_cases hf : f = u
      · simp [hv, hf, ih]
      · simp [hv, hf, ih]

/-- The keys `written` have been marked, on top of `base`. -/
structure MarkedBy (L : Key) (written : List Key) (base db : Database) : Prop where
  message : ∀ ref, db.message ref =
    if ref.location = L ∧ ref.key ∈ written then
      (base.message ref).map fun v => v.setField "isRead" (.bool true)
    else base.message ref
  users : db.users = base.users

namespace MarkedBy

variable {L : Key} {written : List Key} {base db : Database}

theorem refl (L : Key) (db : Database) : MarkedBy L [] db db where
  message ref := by simp
  users := rfl

/-- A write of the call. -/
theorem own (h : MarkedBy L written base db) {k : Key} (hk : base.message ⟨L, k⟩ ≠ none) :
    MarkedBy L (written ++ [k]) base (db.after (.setRead ⟨L, k⟩)) where
  message ref := by
    obtain ⟨v, hv⟩ := Option.ne_none_iff_exists'.1 hk
    rw [Database.message_setRead]
    by_cases hrefk : ref = ⟨L, k⟩
    · subst hrefk
      rw [if_pos rfl, if_pos ⟨rfl, by simp⟩, h.message, hv]
      by_cases hw : k ∈ written
      · simp [hw]
      · simp [hw]
    · have hiff : ref.location = L ∧ ref.key ∈ written ++ [k] ↔
          ref.location = L ∧ ref.key ∈ written := by
        refine and_congr_right fun hL => ?_
        rw [List.mem_append, List.mem_singleton, or_iff_left]
        rintro rfl
        exact hrefk (hL ▸ rfl)
      rw [if_neg hrefk, h.message, if_congr hiff rfl rfl]
  users := h.users

/-- A write of another call, unless it replaces a record that has been marked. -/
theorem other (h : MarkedBy L written base db) {w : Write}
    (hw : ∀ ref values, w = .setMessage ref values → ¬(ref.location = L ∧ ref.key ∈ written)) :
    MarkedBy L written (base.after w) (db.after w) := by
  cases w with
  | setMessage ref₀ values =>
    refine ⟨fun ref => ?_, h.users⟩
    rw [Database.message_setMessage, Database.message_setMessage]
    by_cases href : ref = ref₀
    · subst href
      rw [if_pos rfl, if_pos rfl, if_neg (hw ref values rfl)]
    · rw [if_neg href, if_neg href, h.message]
  | setRead ref₀ =>
    refine ⟨fun ref => ?_, h.users⟩
    rw [Database.message_setRead, Database.message_setRead]
    by_cases href : ref = ref₀
    · subst href
      rw [if_pos rfl, if_pos rfl, h.message]
      by_cases hmarked : ref.location = L ∧ ref.key ∈ written
      · rw [if_pos hmarked, if_pos hmarked]
        cases base.message ref <;> simp
      · rw [if_neg hmarked, if_neg hmarked]
    · rw [if_neg href, if_neg href, h.message]
  | updatePointer x y location =>
    refine ⟨h.message, ?_⟩
    simp only [Database.after, Database.setPointer, Database.pointer, h.users]

end MarkedBy

/-- No write removes a record. -/
theorem message_after_ne_none {db : Database} {ref : Reference} (h : db.message ref ≠ none)
    (w : Write) : (db.after w).message ref ≠ none := by
  cases w with
  | setMessage ref' values =>
    rw [Database.message_setMessage]
    split_ifs
    · simp
    · exact h
  | setRead ref' =>
    rw [Database.message_setRead]
    split_ifs
    · simp
    · exact h
  | updatePointer => exact h

namespace Repository

variable {s t r : Repository} {i : ℕ} {u : UserID} {L : Key} {a : Action} {as : List Action}

/-! ## The run of the call -/

theorem otherWrites_cons (h : machine.step s a = some r) :
    otherWrites i s (a :: as) =
      (if a.resumes i then [] else (s.write? a).toList) ++ otherWrites i r as := by
  have hstep : step s a = some r := h
  simp only [otherWrites, writes, hstep, List.filter_append, List.map_append]
  congr 1
  cases s.write? a <;> cases a.resumes i <;> rfl

/-- Another action leaves the call where it is, or drops it. -/
theorem at_of_not_resumes (h : machine.step s a = some r) (ha : a.resumes i = false) {c : Call}
    (hc : s.At i c) : r.At i c ∨ r.At i .finished := by
  cases Step.of_step h with
  | login => exact .inl hc
  | logOut => exact .inl hc
  | start => exact .inl (at_start_of_at hc)
  | @fire j =>
    have hji : j ≠ i := of_decide_eq_false ha
    exact .inl (at_set_of_ne hji.symm hc)
  | @stop j =>
    by_cases hji : j = i
    · subst hji
      exact .inr (at_set_self hc)
    · exact .inl (at_set_of_ne (Ne.symm hji) hc)

/-- A call that has been dropped stays so. -/
theorem at_finished_of_execFrom (h : s.At i .finished) (ht : machine.execFrom s as = some t) :
    t.At i .finished := by
  refine Machine.execFrom_invariant (I := fun s => s.At i .finished) (P := fun _ => True) ?_
    (fun _ _ => trivial) ht h
  intro s a r _ hs hr
  rcases at_of_step hr hs with hr | hr | ⟨_, _, _, ho, _⟩
  · exact hr
  · exact hr
  · cases ho

/-- A write of the call, if it is applied. -/
theorem markWrites_step {keys : List Key} (h : machine.step s a = some r)
    (ha : a.resumes i = true) (hi : s.At i (.markWrites u L keys))
    (happlied : a ≠ .resume i (.write false)) :
    ∃ k rest, keys = k :: rest ∧ r.At i (.markWrites u L rest) ∧
      r.db = s.db.after (.setRead ⟨L, k⟩) := by
  cases Step.of_step h with
  | start hc => cases hc <;> cases ha
  | @fire j response c o hc ho =>
    obtain rfl : j = i := of_decide_eq_true ha
    obtain rfl := Option.some.inj (hi.symm.trans hc)
    cases ho with
    | @marked _ _ k rest ok =>
      cases ok with
      | true => exact ⟨k, rest, rfl, at_set_self hi, rfl⟩
      | false => exact absurd rfl happlied
  | _ => cases ha

/-- The call writes the read flags of the keys that it holds, one after the other. -/
theorem markedBy_of_run {keys written : List Key} {base : Database}
    (hi : s.At i (.markWrites u L keys)) (ht : machine.execFrom s as = some t)
    (hdone : t.At i (.markWrites u L [])) (happlied : .resume i (.write false) ∉ as)
    (hkeys : ∀ k ∈ keys, base.message ⟨L, k⟩ ≠ none)
    (hstores : ∀ ref values, .setMessage ref values ∈ otherWrites i s as →
      ¬(ref.location = L ∧ ref.key ∈ written ++ keys))
    (h : MarkedBy L written base s.db) :
    MarkedBy L (written ++ keys) (base.afterAll (otherWrites i s as)) t.db := by
  -- On the run: a key moves from those to write to those written with each step of the call.
  induction as generalizing s base written keys with
  | nil =>
    obtain rfl := Option.some.inj ht
    obtain ⟨-, -, rfl⟩ := Call.markWrites.inj (Option.some.inj (hi.symm.trans hdone))
    rw [List.append_nil]
    exact h
  | cons a as ih =>
    obtain ⟨r, hr, ht⟩ := Option.bind_eq_some_iff.1 ht
    have happlied' : .resume i (.write false) ∉ as := fun hmem =>
      happlied (List.mem_cons_of_mem _ hmem)
    rw [otherWrites_cons hr] at hstores ⊢
    cases ha : a.resumes i with
    | true =>
      obtain ⟨k, rest, rfl, hri, hdb⟩ := markWrites_step hr ha hi fun he =>
        happlied (he ▸ List.mem_cons_self)
      rw [List.append_cons] at hstores ⊢
      simp only [ha, if_true, List.nil_append] at hstores ⊢
      refine ih hri ht happlied' (fun k' hk' => hkeys k' (List.mem_cons_of_mem k hk')) hstores ?_
      rw [hdb]
      exact h.own (hkeys k List.mem_cons_self)
    | false =>
      simp only [ha, Bool.false_eq_true, if_false] at hstores ⊢
      -- Had the call been dropped, it would not have come to its last key.
      have hri : r.At i (.markWrites u L keys) := by
        refine (at_of_not_resumes hr ha hi).resolve_right fun hfin => ?_
        have hfin' := at_finished_of_execFrom hfin ht
        rw [At, hdone] at hfin'
        cases hfin'
      have hdb := (Step.of_step hr).db_eq
      cases hw : s.write? a with
      | none =>
        rw [hw] at hdb hstores
        rw [Option.toList_none, List.nil_append] at hstores ⊢
        exact ih hri ht happlied' hkeys hstores (hdb ▸ h)
      | some w =>
        rw [hw, Option.elim_some] at hdb
        rw [hw, Option.toList_some, List.singleton_append] at hstores
        rw [Option.toList_some, List.singleton_append]
        have hafter : MarkedBy L written (base.after w) r.db := by
          rw [hdb]
          refine h.other fun ref values he hmem => ?_
          exact hstores ref values (he ▸ List.mem_cons_self)
            ⟨hmem.1, List.mem_append_left _ hmem.2⟩
        exact ih hri ht happlied' (fun k hk => message_after_ne_none (hkeys k hk) w)
          (fun ref values hmem => hstores ref values (List.mem_cons_of_mem _ hmem)) hafter

/-- The snapshot gives the call its keys. -/
theorem markSnapshot_step {id : Reference} (h : machine.step s (.resume i (.snapshot id)) = some r)
    (hi : s.At i (.markSnapshot u L)) :
    r.At i (.markWrites u L (keysToMark u (s.db.conversations L))) ∧ r.db = s.db := by
  cases Step.of_step h with
  | start hc => cases hc
  | fire hc ho =>
    obtain rfl := Option.some.inj (hi.symm.trans hc)
    cases ho with
    | snapped => exact ⟨at_set_self hi, rfl⟩

/-- A step of the call before a run in which nothing else is written. -/
theorem resume_cons {response : Response} (h : machine.step s (.resume i response) = some r)
    (hresponse : response ≠ .write false) (ht : machine.execFrom r as = some t)
    (happlied : .resume i (.write false) ∉ as) (hothers : otherWrites i r as = []) :
    machine.execFrom s (.resume i response :: as) = some t ∧
      .resume i (.write false) ∉ .resume i response :: as ∧
      otherWrites i s (.resume i response :: as) = [] := by
  refine ⟨?_, fun hmem => ?_, ?_⟩
  · rw [Machine.execFrom_cons, h, Option.bind_some, ht]
  · rcases List.mem_cons.1 hmem with he | hmem
    · exact hresponse (Action.resume.inj he).2.symm
    · exact happlied hmem
  · rw [otherWrites_cons h, hothers]
    simp [Action.resumes]

/-- Without any other step, the call can write all its keys. -/
theorem exists_run (keys : List Key) (hi : s.At i (.markWrites u L keys)) :
    ∃ t as, machine.execFrom s as = some t ∧ t.At i (.markWrites u L []) ∧
      .resume i (.write false) ∉ as ∧ otherWrites i s as = [] := by
  induction keys generalizing s with
  | nil => exact ⟨s, [], rfl, hi, List.not_mem_nil, rfl⟩
  | cons k rest ih =>
    let o : Outcome := { next := .markWrites u L rest }
    have hstep : machine.step s (.resume i (.write true)) =
        some (s.fire i (.markWrites u L (k :: rest)) (.write true) o) :=
      step_resume hi rfl s.unissued_nil
    obtain ⟨t, as, ht, hdone, happlied, hothers⟩ := ih (s := s.fire i _ (.write true) o)
      (at_set_self hi)
    obtain ⟨hrun, happlied, hothers⟩ := resume_cons hstep (by simp) ht happlied hothers
    exact ⟨t, _, hrun, hdone, happlied, hothers⟩

/-! ## What is marked -/

/-- The messages of others that come before any record without a sender are marked. -/
theorem mem_keysToMark_iff {content : Keyed Key Value} (hk : content.NodupKeys) {e : Key × Value}
    (he : e ∈ content) (hother : FromOther u e.2) :
    e.1 ∈ keysToMark u content ↔ e ∈ content.takeWhile fun e => e.2.fromID.isSome := by
  rw [keysToMark_eq]
  constructor
  · intro h
    obtain ⟨e', he', hkey⟩ := List.mem_map.1 h
    have hmem := List.mem_of_mem_filter he'
    have hlookup := hk.lookup_eq_some_iff.2 ((List.takeWhile_sublist _).subset hmem)
    rw [hkey, hk.lookup_eq_some_iff.2 he] at hlookup
    obtain rfl : e' = e := Prod.ext hkey (Option.some.inj hlookup).symm
    exact hmem
  · intro h
    obtain ⟨f, hf, hne⟩ := hother
    exact List.mem_map.2 ⟨e, List.mem_filter.2 ⟨h, by simpa [hf] using hne⟩, rfl⟩

theorem isRead_after {db : Database} {ref : Reference} {w : Write}
    (h : (db.message ref).bind Value.isRead = some true)
    (hw : ∀ values, w ≠ .setMessage ref values) :
    ((db.after w).message ref).bind Value.isRead = some true := by
  cases w with
  | setMessage ref' values =>
    rw [Database.message_setMessage, if_neg (by rintro rfl; exact hw values rfl), h]
  | setRead ref' =>
    rw [Database.message_setRead]
    split_ifs
    · exact isRead_setRead _
    · exact h
  | updatePointer => exact h

/-- A record that has been read stays so. -/
theorem isRead_afterAll {db : Database} {ref : Reference} {ws : List Write}
    (h : (db.message ref).bind Value.isRead = some true)
    (hws : ∀ values, .setMessage ref values ∉ ws) :
    ((db.afterAll ws).message ref).bind Value.isRead = some true := by
  induction ws generalizing db with
  | nil => exact h
  | cons w ws ih =>
    exact ih (isRead_after h fun values he => hws values (he ▸ List.mem_cons_self))
      fun values hmem => hws values (List.mem_cons_of_mem w hmem)

theorem message_afterAll_ne_none {db : Database} {ref : Reference} (h : db.message ref ≠ none)
    (ws : List Write) : (db.afterAll ws).message ref ≠ none := by
  induction ws generalizing db with
  | nil => exact h
  | cons w ws ih => exact ih (message_after_ne_none h w)

/-- The call marks its keys, on top of what the others write. -/
theorem Completes.markedBy (h : Completes s i u L as t) (hi : s.At i (.markSnapshot u L)) :
    MarkedBy L (keysToMark u (s.db.conversations L)) (s.db.afterAll (otherWrites i s as)) t.db := by
  obtain ⟨id, rest, rfl⟩ := h.snapshot
  obtain ⟨r, hr, ht⟩ := Option.bind_eq_some_iff.1 h.run
  obtain ⟨hri, hdb⟩ := markSnapshot_step hr hi
  have hstored : ∀ k ∈ keysToMark u (s.db.conversations L), s.db.message ⟨L, k⟩ ≠ none := by
    intro k hk
    obtain ⟨v, _, hmem, _⟩ := exists_of_mem_keysToMark hk
    exact Keyed.lookup_ne_none_of_mem hmem
  have hothers : otherWrites i s (.resume i (.snapshot id) :: rest) = otherWrites i r rest := by
    rw [otherWrites_cons hr, if_pos (by simp [Action.resumes]), List.nil_append]
  have hstores := h.stores
  rw [hothers] at hstores ⊢
  have hstart : MarkedBy L [] s.db r.db := hdb ▸ .refl L s.db
  refine markedBy_of_run hri ht h.done (fun hmem => h.applied (List.mem_cons_of_mem _ hmem))
    hstored ?_ hstart
  rintro ref values hmem ⟨rfl, hk⟩
  exact hstored ref.key hk (hstores ref values hmem)

/-- A call can be taken to the end of its writes without any other step. -/
theorem exists_completes (hi : s.At i (.markSnapshot u L)) :
    ∃ as t, Completes s i u L as t ∧ otherWrites i s as = [] := by
  let o : Outcome := { next := .markWrites u L (keysToMark u (s.db.conversations L)) }
  have hstep : machine.step s (.resume i (.snapshot ⟨"", ""⟩)) =
      some (s.fire i (.markSnapshot u L) (.snapshot ⟨"", ""⟩) o) :=
    step_resume hi rfl s.unissued_nil
  obtain ⟨t, as, ht, hdone, happlied, hothers⟩ :=
    exists_run (s := s.fire i _ (.snapshot ⟨"", ""⟩) o) _ (at_set_self hi)
  obtain ⟨hrun, happlied, hothers⟩ := resume_cons hstep (by simp) ht happlied hothers
  refine ⟨_, t, ⟨hrun, ⟨_, as, rfl⟩, hdone, happlied, fun ref values hmem => ?_⟩, hothers⟩
  rw [hothers] at hmem
  exact absurd hmem List.not_mem_nil

/-- From its snapshot on, a call marks exactly the messages of others if and only
    if these come before any record without a sender, or have been read already. -/
theorem marksExactly_iff (hi : s.At i (.markSnapshot u L)) :
    s.MarksExactly i u L ↔
      ∀ e ∈ s.db.conversations L, FromOther u e.2 →
        e ∈ (s.db.conversations L).takeWhile (fun e => e.2.fromID.isSome) ∨
          e.2.isRead = some true := by
  have hnodup := s.db.nodup_conversations L
  have hmessage : ∀ e ∈ s.db.conversations L, s.db.message ⟨L, e.1⟩ = some e.2 := fun e he =>
    hnodup.lookup_eq_some_iff.2 he
  constructor
  · -- In the run of the call alone, only its own writes can have marked the message.
    intro h e he hother
    obtain ⟨as, t, hrun, hnone⟩ := exists_completes hi
    have hread := (h as t hrun).read e he hother
    rw [(hrun.markedBy hi).message, hnone] at hread
    by_cases hk : e.1 ∈ keysToMark u (s.db.conversations L)
    · exact .inl ((mem_keysToMark_iff hnodup he hother).1 hk)
    · rw [if_neg fun hand => hk hand.2] at hread
      have hkept : (s.db.message ⟨L, e.1⟩).bind Value.isRead = some true := hread
      rw [hmessage e he] at hkept
      exact .inr hkept
  · intro hall as t hrun
    have hmarked := hrun.markedBy hi
    refine ⟨fun e he hother => ?_, fun ref v hv => ?_, fun ref href => ?_, hmarked.users⟩
    · rw [hmarked.message]
      by_cases hk : e.1 ∈ keysToMark u (s.db.conversations L)
      · rw [if_pos ⟨rfl, hk⟩]
        have hne : s.db.message ⟨L, e.1⟩ ≠ none := by simp [hmessage e he]
        obtain ⟨v, hv⟩ := Option.ne_none_iff_exists'.1
          (message_afterAll_ne_none hne (otherWrites i s as))
        rw [hv]
        exact isRead_setRead v
      · rw [if_neg fun hand => hk hand.2]
        have hread : e.2.isRead = some true := (hall e he hother).resolve_left
          (mt (mem_keysToMark_iff hnodup he hother).2 hk)
        refine isRead_afterAll (by rw [hmessage e he]; exact hread) fun values hmem => ?_
        have hnone := hrun.stores ⟨L, e.1⟩ values hmem
        rw [hmessage e he] at hnone
        cases hnone
    · rw [hmarked.message]
      split_ifs
      · exact ⟨_, by rw [hv]; rfl, (SameRecord.refl v).setRead⟩
      · exact ⟨v, hv, .refl v⟩
    · rw [hmarked.message, if_neg]
      rintro ⟨rfl, hk⟩
      obtain ⟨v, f, hmem, hf, hne⟩ := exists_of_mem_keysToMark hk
      exact href (ref.key, v) hmem ⟨f, hf, hne⟩ rfl

/-- From a reachable state no call stores a record where there is one. -/
theorem message_eq_none_of_otherWrites (hs : s.Fresh) (ht : machine.execFrom s as = some t)
    {ref : Reference} {values : Fields} (hw : .setMessage ref values ∈ otherWrites i s as) :
    s.db.message ref = none := by
  induction as generalizing s with
  | nil => exact absurd hw List.not_mem_nil
  | cons a as ih =>
    obtain ⟨r, hr, ht⟩ := Option.bind_eq_some_iff.1 ht
    rw [otherWrites_cons hr, List.mem_append] at hw
    rcases hw with hw | hw
    · split_ifs at hw
      · exact absurd hw List.not_mem_nil
      · exact hs.message_of_setMessage (Option.mem_toList.1 hw)
    · have hnone := ih (hs.step (.of_step hr)) ht hw
      rw [(Step.of_step hr).db_eq] at hnone
      by_contra hne
      cases ha : s.write? a with
      | none =>
        rw [ha] at hnone
        exact hne hnone
      | some w =>
        rw [ha] at hnone
        exact message_after_ne_none hne w hnone

/-- `u` uploads three more records: one of another shape, one without a sender, and
    one that is marked already. -/
def irregular : List Action :=
  [.uploadMessage 0 [("fromID", .string "u")] "v", .resume 2 (.snapshot ⟨"", "m"⟩),
    .resume 2 (.write true),
    .uploadMessage 0 [("content", .string "?")] "v", .resume 3 (.snapshot ⟨"", "n"⟩),
    .resume 3 (.write true),
    .uploadMessage 0 [("fromID", .string "u"), ("isRead", .bool true)] "v",
    .resume 4 (.snapshot ⟨"", "o"⟩), .resume 4 (.write true)]

/-- `v` is about to read these, the first message of `u`, and the own answer. -/
theorem marksExactly_irregular : ∃ s, machine.exec
    (firstAnswer ++ irregular ++ [.markMessagesRead 1 "u", .resume 5 (.snapshot ⟨"", ""⟩)]) =
      some s ∧ (s.db.conversations "L").map Prod.fst = ["k", "l", "m", "n", "o"] ∧
      s.MarksExactly 5 "v" "L" := by
  obtain ⟨s, hs, hi, hkeys, hread⟩ : ∃ s, machine.exec (firstAnswer ++ irregular ++
      [.markMessagesRead 1 "u", .resume 5 (.snapshot ⟨"", ""⟩)]) = some s ∧
      s.At 5 (.markSnapshot "v" "L") ∧
      (s.db.conversations "L").map Prod.fst = ["k", "l", "m", "n", "o"] ∧
      ∀ e ∈ s.db.conversations "L", e.2.fromID ≠ none →
        e ∈ (s.db.conversations "L").takeWhile (fun e => e.2.fromID.isSome) ∨
          e.2.isRead = some true := ⟨_, rfl, rfl, rfl, by decide⟩
  refine ⟨s, hs, hkeys, (marksExactly_iff hi).2 ?_⟩
  rintro e he ⟨f, hf, _⟩
  exact hread e he (by simp [hf])

/-- A conversation with a record without a sender, and a message of `v` after it,
    of which `u` is about to take a snapshot. -/
def senderless : Repository :=
  { machine.init with
    db := Database.empty.afterAll [.setMessage ⟨"L", "k"⟩ [("content", .string "?")],
      .setMessage ⟨"L", "l"⟩ (messageValues .text (.string "hi") "v" "u" 1)]
    calls := [.markSnapshot "u" "L"] }

/-- The message of `v` is left unread. -/
theorem not_marksExactly_senderless :
    senderless.At 0 (.markSnapshot "u" "L") ∧ ¬senderless.MarksExactly 0 "u" "L" := by
  refine ⟨rfl, fun h => ?_⟩
  obtain ⟨t, ht, hdone, hunread⟩ : ∃ t,
    machine.execFrom senderless [.resume 0 (.snapshot ⟨"", ""⟩)] = some t ∧
      t.At 0 (.markWrites "u" "L" []) ∧
      (t.db.message ⟨"L", "l"⟩).bind Value.isRead = some false := ⟨_, rfl, rfl, by decide⟩
  have hnone : otherWrites 0 senderless [.resume 0 (.snapshot ⟨"", ""⟩)] = [] := rfl
  have hread := (h _ t ⟨ht, ⟨_, _, rfl⟩, hdone, by simp, by simp [hnone]⟩).read
    ("l", .dictionary (messageValues .text (.string "hi") "v" "u" 1)) (by decide)
    ⟨"v", by decide, by decide⟩
  rw [hunread] at hread
  cases hread

end Repository

end MagicChat
