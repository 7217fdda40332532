import Mathlib.Data.List.TakeWhile
import MagicChat.Repository.Marks
import MagicChat.Repository.Origin

/-!
# What has been read

A call to `markMessagesRead` comes to an end if it is answered, and then all messages
of others are read that were stored before the call at the location that the pointer
of its user held (`read_of_ended`), whatever the other calls do in between, fail or
not: as long as the call itself is not dropped, none of its writes fails, and the
pointer of its user is not replaced.

The loop over the snapshot gives up at a record without a sender; there are none
where records are stored by `send` alone.
-/

namespace MagicChat

namespace Repository

variable {s t r : Repository} {as bs : List Action} {a : Action} {n : ℕ} {u peer : UserID}
  {L : Key} {ref : Reference} {v : Value}

/-- No record is stored but by `send`. -/
def OnlySent (as : List Action) : Prop := ∀ d values toID, .uploadMessage d values toID ∉ as

/-- Every record that has been sent has a sender. -/
theorem fromID_of_onlySent (h : machine.exec as = some s) (honly : OnlySent as)
    (hv : s.db.message ref = some v) : v.fromID.isSome = true := by
  obtain ⟨origin, htraced⟩ := exists_traced h
  obtain ⟨r, a, w, ⟨p, hp, _⟩, hw, hsame⟩ := htraced.composes hv
  have ha : a ∈ as := hp.subset (List.mem_append_right p (List.mem_singleton_self a))
  rw [hsame.fromID]
  cases hw with
  | send => rfl
  | photo => rfl
  | uploadMessage => exact absurd ha (honly _ _ _)

/-- Nothing disturbs the call `n`, to read what `peer` has sent to `u`. -/
def Undisturbed (n : ℕ) (u peer : UserID) (s : Repository) (a : Action) : Prop :=
  a ≠ .stop n ∧ a ≠ .resume n (.write false) ∧ ¬s.Replaces a u peer

/-- The record is that of another user. -/
def Foreign (s : Repository) (u : UserID) (ref : Reference) : Prop :=
  ∃ v, s.db.message ref = some v ∧ FromOther u v

/-- The record has been read. -/
def Read (s : Repository) (ref : Reference) : Prop :=
  (s.db.message ref).bind Value.isRead = some true

instance : Decidable (s.Read ref) := inferInstanceAs (Decidable (_ = _))

/-- The call `n` is on its way to read the record, or it has. -/
inductive Reading (n : ℕ) (u peer : UserID) (ref : Reference) (s : Repository) : Prop
  | pointer : s.At n (.markPointer u peer) → Reading n u peer ref s
  | snapshot : s.At n (.markSnapshot u ref.location) → Reading n u peer ref s
  | writes {keys : List Key} : s.At n (.markWrites u ref.location keys) →
    ref.key ∈ keys ∨ s.Read ref → Reading n u peer ref s

/-- A record stays, from another user, and read if it is. -/
theorem foreign_step (hs : machine.exec as = some s) (ht : machine.step s a = some t)
    (h : s.Foreign u ref) : t.Foreign u ref ∧ (s.Read ref → t.Read ref) := by
  obtain ⟨v, hv, f, hf, hne⟩ := h
  rcases message_step hs ht hv with ht | ⟨ht, _⟩
  · exact ⟨⟨v, ht, f, hf, hne⟩, fun hread => by rwa [Read, ht, ← hv]⟩
  · refine ⟨⟨_, ht, f, (fromID_setRead v).trans hf, hne⟩, fun _ => ?_⟩
    rw [Read, ht]
    exact isRead_setRead v

/-- The snapshot finds the record, where all records have a sender. -/
theorem mem_keysToMark (h : s.Foreign u ref)
    (hsenders : ∀ ref v, s.db.message ref = some v → v.fromID.isSome = true) :
    ref.key ∈ keysToMark u (s.db.conversations ref.location) := by
  obtain ⟨v, hv, hother⟩ := h
  have hnodup := s.db.nodup_conversations ref.location
  have hmem := hnodup.lookup_eq_some_iff.1 hv
  refine (mem_keysToMark_iff hnodup hmem hother).2 ?_
  rw [List.takeWhile_eq_self_iff.2 fun e he => ?_]
  · exact hmem
  · exact hsenders ⟨ref.location, e.1⟩ e.2 (hnodup.lookup_eq_some_iff.2 he)

/-- A call that is neither answered nor dropped stays where it is. -/
theorem at_stays {c : Call} (h : machine.step s a = some t) (ha : a.resumes n = false)
    (hstop : a ≠ .stop n) (hc : s.At n c) : t.At n c := by
  cases Step.of_step h with
  | login => exact hc
  | logOut => exact hc
  | start => exact at_start_of_at hc
  | fire => exact at_set_of_ne (Ne.symm (of_decide_eq_false ha)) hc
  | stop => exact at_set_of_ne (fun he => hstop (he ▸ rfl)) hc

/-- The pointer leads the call to its location. -/
theorem markPointer_step {response : Response} (h : machine.step s (.resume n response) = some t)
    (hn : s.At n (.markPointer u peer)) (hL : s.db.location u peer = some L) :
    t.At n (.markSnapshot u L) := by
  obtain ⟨c, hc, h⟩ := Option.bind_eq_some_iff.1 h
  obtain rfl := Option.some.inj (hn.symm.trans hc)
  obtain ⟨o, ho, h⟩ := Option.bind_eq_some_iff.1 h
  obtain ⟨_, h⟩ := Option.ite_none_right_eq_some.1 h
  obtain rfl := Option.some.inj h
  cases response with
  | snapshot id =>
    have hL' : (s.db.pointer u peer).bind Value.location = some L := hL
    simp only [Call.resume, hL'] at ho
    cases ho
    exact at_set_self hn
  | _ => cases ho

/-- An answer to the call takes it further. -/
theorem Reading.resume {response : Response} (h : s.Reading n u peer ref)
    (ht : machine.step s (.resume n response) = some t)
    (hresponse : response ≠ .write false) (hL : s.db.location u peer = some ref.location)
    (hforeign : s.Foreign u ref)
    (hsenders : ∀ ref v, s.db.message ref = some v → v.fromID.isSome = true)
    (hread : s.Read ref → t.Read ref) : t.Reading n u peer ref := by
  cases h with
  | pointer hn => exact .snapshot (markPointer_step ht hn hL)
  | snapshot hn =>
    have hsnapshot : ∃ id, response = .snapshot id := by
      cases Step.of_step ht with
      | start hc => cases hc
      | fire hc ho =>
        obtain rfl := Option.some.inj (hn.symm.trans hc)
        cases ho with
        | @snapped _ _ id => exact ⟨id, rfl⟩
    obtain ⟨id, rfl⟩ := hsnapshot
    exact .writes (markSnapshot_step ht hn).1 (.inl (mem_keysToMark hforeign hsenders))
  | @writes keys hn hkeys =>
    obtain ⟨k, rest, rfl, htn, hdb⟩ := markWrites_step ht (by simp [Action.resumes]) hn
      fun he => hresponse (Action.resume.inj he).2
    refine .writes htn ?_
    rcases hkeys with hkey | hr
    · rcases List.mem_cons.1 hkey with rfl | hkey
      · -- This is the flag of the record.
        obtain ⟨v, hv, _⟩ := hforeign
        refine .inr ?_
        rw [Read, hdb, Database.message_setRead, if_pos rfl, hv]
        exact isRead_setRead v
      · exact .inl hkey
    · exact .inr (hread hr)

/-- A step that does not disturb the call leaves it on its way. -/
theorem Reading.step (h : s.Reading n u peer ref) (hs : machine.exec as = some s)
    (ht : machine.step s a = some t) (ha : Undisturbed n u peer s a)
    (hL : s.db.location u peer = some ref.location) (hforeign : s.Foreign u ref)
    (honly : OnlySent as) : t.Reading n u peer ref := by
  obtain ⟨hstop, hwrite, _⟩ := ha
  have hread := (foreign_step hs ht hforeign).2
  cases hresumes : a.resumes n with
  | true =>
    obtain ⟨response, rfl⟩ : ∃ response, a = .resume n response := by
      cases a with
      | resume i response => exact ⟨response, by rw [of_decide_eq_true hresumes]⟩
      | _ => cases hresumes
    exact h.resume ht (fun he => hwrite (he ▸ rfl)) hL hforeign
      (fun _ _ => fromID_of_onlySent hs honly) hread
  | false =>
    cases h with
    | pointer hn => exact .pointer (at_stays ht hresumes hstop hn)
    | snapshot hn => exact .snapshot (at_stays ht hresumes hstop hn)
    | writes hn hkeys => exact .writes (at_stays ht hresumes hstop hn) (hkeys.imp_right hread)

/-- On a run that does not disturb the call, it is on its way, or the record is read. -/
theorem Reading.run (h : s.Reading n u peer ref) (hs : machine.exec as = some s)
    (ht : machine.execFrom s bs = some t) (hC : machine.AlongFrom (Undisturbed n u peer) s bs)
    (hL : s.db.location u peer = some ref.location) (hforeign : s.Foreign u ref)
    (honly : OnlySent (as ++ bs)) : t.Reading n u peer ref := by
  induction bs generalizing as s with
  | nil => exact Option.some.inj ht ▸ h
  | cons a bs ih =>
    obtain ⟨r, hr, ht⟩ := Option.bind_eq_some_iff.1 ht
    have honly' : OnlySent as := fun d values toID hmem =>
      honly d values toID (List.mem_append_left _ hmem)
    refine ih (h.step hs hr hC.1 hL hforeign honly') (Machine.exec_concat_eq_some.2 ⟨s, hs, hr⟩) ht
      (hC.2 r hr) (location_step (fresh_of_reachable ⟨as, hs⟩) hr hC.1.2.2 hL)
      (foreign_step hs hr hforeign).1 ?_
    rwa [List.append_assoc, List.singleton_append]

/-- A call to `markMessagesRead` that nothing disturbs has read, when it has ended, all
    messages of others that were stored before where the pointer to `peer` leads. -/
theorem read_of_ended {d : Device} {c : Call} (hs : machine.exec as = some s)
    (hu : s.currentUser d = some u) (hL : s.db.location u peer = some ref.location)
    (hforeign : s.Foreign u ref) (hmark : machine.step s (.markMessagesRead d peer) = some r)
    (ht : machine.execFrom r bs = some t)
    (hC : machine.AlongFrom (Undisturbed s.calls.length u peer) r bs)
    (honly : OnlySent (as ++ .markMessagesRead d peer :: bs))
    (hc : t.At s.calls.length c) (hended : c.Ended) : t.Read ref := by
  have hreading : r.Reading s.calls.length u peer ref := by
    obtain rfl := Option.some.inj hmark
    refine .pointer ?_
    rw [hu]
    exact at_start_self _
  have hr : machine.exec (as ++ [.markMessagesRead d peer]) = some r :=
    Machine.exec_concat_eq_some.2 ⟨s, hs, hmark⟩
  have hL' : r.db.location u peer = some ref.location := by
    obtain rfl := Option.some.inj hmark
    exact hL
  have hforeign' : r.Foreign u ref := by
    obtain rfl := Option.some.inj hmark
    exact hforeign
  cases hreading.run hr ht hC hL' hforeign' (by simpa using honly) with
  | pointer hn =>
    obtain rfl := Option.some.inj (hn.symm.trans hc)
    simp [Call.Ended, Call.stage] at hended
  | snapshot hn =>
    obtain rfl := Option.some.inj (hn.symm.trans hc)
    simp [Call.Ended, Call.stage] at hended
  | @writes keys hn hkeys =>
    obtain rfl := Option.some.inj (hn.symm.trans hc)
    have hkeys' : keys = [] := List.length_eq_zero_iff.1 hended.2
    exact hkeys.resolve_left (by simp [hkeys'])

/-- `v` reads the first message of `u`, and nothing comes in between. -/
theorem read_firstMessage : ∃ s r t, machine.exec firstMessage = some s ∧
    machine.step s (.markMessagesRead 1 "u") = some r ∧
    machine.execFrom r readFirstMessage.tail = some t ∧ ¬s.Read ⟨"L", "k"⟩ ∧
      t.Read ⟨"L", "k"⟩ := by
  have hundisturbed : ∀ {s : Repository} {a : Action} (w : Option Write), s.write? a = w →
      (∀ L, w ≠ some (.updatePointer "v" "u" L)) → a ≠ .stop 1 → a ≠ .resume 1 (.write false) →
      Undisturbed 1 "v" "u" s a := by
    rintro s a w hw hne hstop hwrite
    refine ⟨hstop, hwrite, ?_⟩
    rintro ⟨_, L, _, hw', _⟩
    exact hne L (hw.symm.trans hw')
  -- No step writes a pointer.
  have hC : ∀ s r, machine.exec firstMessage = some s →
      machine.step s (.markMessagesRead 1 "u") = some r →
      machine.AlongFrom (Undisturbed s.calls.length "v" "u") r readFirstMessage.tail := by
    rintro _ _ ⟨⟩ ⟨⟩
    refine .cons (hundisturbed none rfl (by simp) (by simp) (by simp)) rfl ?_
    refine .cons (hundisturbed none rfl (by simp) (by simp) (by simp)) rfl ?_
    exact .cons (hundisturbed (some (.setRead ⟨"L", "k"⟩)) rfl (by simp) (by simp) (by simp)) rfl
      trivial
  obtain ⟨s, hs, hu, hL, hforeign, hunread, r, hr, t, ht, c, hc, hended⟩ :
      ∃ s, machine.exec firstMessage = some s ∧ s.currentUser 1 = some "v" ∧
        s.db.location "v" "u" = some "L" ∧ s.Foreign "v" ⟨"L", "k"⟩ ∧ ¬s.Read ⟨"L", "k"⟩ ∧
      ∃ r, machine.step s (.markMessagesRead 1 "u") = some r ∧
      ∃ t, machine.execFrom r readFirstMessage.tail = some t ∧
      ∃ c, t.At s.calls.length c ∧ c.Ended :=
    ⟨_, rfl, rfl, rfl, ⟨_, rfl, "u", rfl, by decide⟩, by decide, _, rfl, _, rfl, _, rfl, rfl, rfl⟩
  refine ⟨s, r, t, hs, hr, ht, hunread,
    read_of_ended hs hu hL hforeign hr ht (hC s r hs hr) (fun d values toID => ?_) hc hended⟩
  simp [firstMessage, readFirstMessage]

end Repository

end MagicChat
