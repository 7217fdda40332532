import MagicChat.Repository.Fresh

/-!
# Stored messages are immutable

Once a record is stored under `conversations/L/k`, whatever the devices do: it
is never removed, none of its fields changes but the read flag, the flag is only
ever set, and it is set by a call to `markMessagesRead` that another user than
its sender has started (`message_immutable`).

The user that started a call is the one signed in at that moment on its device
(`StartedBy`), who need not be signed in any more when the flag is written.
-/

namespace MagicChat

/-- The reader a call to `markMessagesRead` has captured. -/
def Call.reader : Call → Option UserID
  | .markPointer currentUserID _ => some currentUserID
  | .markSnapshot currentUserID _ => some currentUserID
  | .markWrites currentUserID _ _ => some currentUserID
  | _ => none

/-- A callback does not change the reader. -/
theorem Resumes.reader {db : Database} {currentUser : Device → Option UserID} {c : Call}
    {r : Response} {o : Outcome} (h : Resumes db currentUser c r o) {u : UserID}
    (hn : o.next.reader = some u) : c.reader = some u := by
  cases h with
  | markLocated => exact hn
  | snapped => exact hn
  | marked => exact hn
  | _ => simp [Call.reader] at hn

namespace Repository

/-- In the run `as`, the call `i` is to `markMessagesRead`, and `u` has started it. -/
def StartedBy (as : List Action) (i : ℕ) (u : UserID) : Prop :=
  ∃ p d peer s, p ++ [.markMessagesRead d peer] <+: as ∧ machine.exec p = some s ∧
    s.calls.length = i ∧ s.currentUser d = some u

theorem StartedBy.append {as : List Action} {i : ℕ} {u : UserID} (h : StartedBy as i u)
    (bs : List Action) : StartedBy (as ++ bs) i u := by
  obtain ⟨p, d, peer, s, hp, hs⟩ := h
  exact ⟨p, d, peer, s, hp.trans (List.prefix_append _ _), hs⟩

/-- A call to `markMessagesRead` holds the user that has started it. -/
theorem startedBy_of_at {as : List Action} {s : Repository} (h : machine.exec as = some s) :
    ∀ i c u, s.At i c → c.reader = some u → StartedBy as i u := by
  refine Machine.exec_induction
    (motive := fun as s => ∀ i c u, s.At i c → c.reader = some u → StartedBy as i u)
    (fun i c u hc => absurd hc not_at_init) ?_ h
  intro as s a t hs ih ht j c' u
  have keep : ∀ j c', s.At j c' → c'.reader = some u → StartedBy (as ++ [a]) j u :=
    fun j c' hj hu => (ih j c' u hj hu).append [a]
  cases Step.of_step ht with
  | login => exact keep j c'
  | logOut => exact keep j c'
  | start hc =>
    intro hj hu
    rcases at_start hj with hj | ⟨rfl, rfl⟩
    · exact keep j c' hj hu
    · cases hc with
      | mark hd =>
        exact ⟨as, _, _, s, List.prefix_rfl, hs, rfl, by simpa [Call.reader, hd] using hu⟩
      | _ => simp [Call.reader] at hu
  | @fire i r c o hc ho =>
    intro hj hu
    rcases at_set hj with ⟨rfl, rfl⟩ | ⟨_, hj⟩
    · exact keep j c hc (ho.reader hu)
    · exact keep j c' hj hu
  | stop => exact fun hj hu => keep j c' (at_of_stop rfl hj hu) hu

/-- The action `a`, after the run `as`, is the write of a read flag by a call to
    `markMessagesRead` that another user than the sender of the record has started. -/
def SetsRead (as : List Action) (a : Action) (ref : Reference) (v : Value) : Prop :=
  ∃ s i u f keys, machine.exec as = some s ∧ a = .resume i (.write true) ∧
    s.At i (.markWrites u ref.location (ref.key :: keys)) ∧ StartedBy as i u ∧
    v.fromID = some f ∧ u ≠ f

/-- A step leaves a record alone, or sets its read flag for another user than its sender. -/
theorem message_step {as : List Action} {s t : Repository} {a : Action}
    (hs : machine.exec as = some s) (ht : machine.step s a = some t) {ref : Reference} {v : Value}
    (hv : s.db.message ref = some v) :
    t.db.message ref = some v ∨
      (t.db.message ref = some (v.setField "isRead" (.bool true)) ∧ SetsRead as a ref v) := by
  have hfresh : s.Fresh := fresh_of_reachable ⟨as, hs⟩
  cases Step.of_step ht with
  | @fire i r c o hc ho =>
    rcases hfresh.written_message hc r ref with
      he | ⟨_, _, _, hn, _⟩ | ⟨u, keys, v', hr, rfl, hv', hw⟩
    · exact .inl (he.trans hv)
    · simp [hv] at hn
    · obtain rfl : v' = v := Option.some.inj (hv'.symm.trans hv)
      obtain ⟨w, f, hw', hf, hne⟩ := hfresh.marking i _ u _ _ hc rfl ref.key List.mem_cons_self
      obtain rfl : v' = w := Option.some.inj (hv'.symm.trans hw')
      exact .inr ⟨hw, s, i, u, f, keys, hs, hr ▸ rfl, hc, startedBy_of_at hs i _ u hc rfl, hf,
        hne.symm⟩
  | start hc => exact .inl hv
  | _ => exact .inl hv

/-- A stored message is never removed nor overwritten: its fields stay, its read
    flag is only ever set, and by a call to `markMessagesRead` that another user
    than its sender has started. -/
theorem message_immutable {as bs : List Action} {s t : Repository}
    (hs : machine.exec as = some s) (ht : machine.exec (as ++ bs) = some t) {ref : Reference}
    {v : Value} (hv : s.db.message ref = some v) :
    ∃ v', t.db.message ref = some v' ∧ SameRecord v v' ∧
      (v.isRead = some true → v'.isRead = some true) ∧
      (v'.isRead ≠ v.isRead → v'.isRead = some true ∧
        ∃ b₁ a b₂, bs = b₁ ++ a :: b₂ ∧ SetsRead (as ++ b₁) a ref v) := by
  induction bs using List.reverseRecOn generalizing t with
  | nil =>
    rw [List.append_nil, hs] at ht
    obtain rfl := Option.some.inj ht
    exact ⟨v, hv, .refl v, id, fun h => absurd rfl h⟩
  | append_singleton bs a ih =>
    rw [← List.append_assoc] at ht
    obtain ⟨r, hr, ht⟩ := Machine.exec_concat_eq_some.1 ht
    obtain ⟨v', hv', hsame, hmono, hcause⟩ := ih hr
    -- A cause within `bs` is one within `bs ++ [a]`.
    have earlier : (∃ b₁ a' b₂, bs = b₁ ++ a' :: b₂ ∧ SetsRead (as ++ b₁) a' ref v) →
        ∃ b₁ a' b₂, bs ++ [a] = b₁ ++ a' :: b₂ ∧ SetsRead (as ++ b₁) a' ref v := by
      rintro ⟨b₁, a', b₂, rfl, h⟩
      exact ⟨b₁, a', b₂ ++ [a], by simp, h⟩
    rcases message_step hr ht hv' with
      hkeep | ⟨hset, r', i, u, f, keys, hr', ha, hi, hstart, hf, hne⟩
    · exact ⟨v', hkeep, hsame, hmono, fun h => ⟨(hcause h).1, earlier (hcause h).2⟩⟩
    · refine ⟨_, hset, hsame.setRead, fun _ => isRead_setRead v', fun _ => ⟨isRead_setRead v', ?_⟩⟩
      exact ⟨bs, a, [], rfl, r', i, u, f, keys, hr', ha, hi, hstart, hsame.fromID.symm.trans hf,
        hne⟩

/-- `v` reads the first message of `u`. -/
def readFirstMessage : List Action :=
  [.markMessagesRead 1 "u", .resume 1 (.snapshot ⟨"", ""⟩), .resume 1 (.snapshot ⟨"", ""⟩),
    .resume 1 (.write true)]

/-- The first message stays the same when it is read, but for the read flag. -/
theorem message_immutable_read : ∃ t v', machine.exec (firstMessage ++ readFirstMessage) = some t ∧
    t.db.message ⟨"L", "k"⟩ = some v' ∧
    SameRecord (.dictionary (messageValues .text (.string "hi") "u" "v" 1)) v' := by
  obtain ⟨v', hv', hsame, _⟩ := @message_immutable firstMessage readFirstMessage _ _ rfl rfl
    ⟨"L", "k"⟩ (.dictionary (messageValues .text (.string "hi") "u" "v" 1)) rfl
  exact ⟨_, v', rfl, hv', hsame⟩

end Repository

end MagicChat
