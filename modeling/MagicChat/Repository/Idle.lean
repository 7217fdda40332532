import MagicChat.Library.Settling
import MagicChat.Repository.Step

/-!
# The calls end

A call waits for one answer after the other, at most six of them and then as
many as there are read flags to write. Each answer takes it closer to its end
(`Resumes.drops`), and a call that has not ended can always be answered
(`exists_resume`): the repository settles, in the states in which all calls have
ended (`Idle`).
-/

namespace MagicChat

/-- How many answers a call waits for at most, not counting read flags. -/
def Call.stage : Call → ℕ
  | .putData .. => 6
  | .downloadURL .. => 5
  | .readPointer _ => 4
  | .create .. => 3
  | .pointOwn .. => 2
  | .pointPeer .. => 1
  | .append .. => 1
  | .markPointer .. => 2
  | .markSnapshot .. => 1
  | .markWrites .. => 0
  | .finished => 0

/-- How many read flags a call has to write. -/
def Call.flags : Call → ℕ
  | .markWrites _ _ keys => keys.length
  | _ => 0

/-- The call waits for nothing. -/
def Call.Ended (c : Call) : Prop := c.stage = 0 ∧ c.flags = 0

instance : DecidablePred Call.Ended := fun _ => inferInstanceAs (Decidable (_ ∧ _))

/-- An answer takes a call closer to its end. -/
theorem Resumes.drops {db : Database} {currentUser : Device → Option UserID} {c : Call}
    {r : Response} {o : Outcome} (h : Resumes db currentUser c r o) :
    Drops [Call.stage, Call.flags] c o.next := by
  cases h with
  | marked => exact .tail rfl (.head (Nat.lt_succ_self _))
  | _ => exact .head (by simp [Call.stage])

/-- A call that has ended is not answered any more. -/
theorem Resumes.not_ended {db : Database} {currentUser : Device → Option UserID} {c : Call}
    {r : Response} {o : Outcome} (h : Resumes db currentUser c r o) : ¬c.Ended := by
  rintro ⟨hstage, hflags⟩
  cases h with
  | marked => exact Nat.succ_ne_zero _ hflags
  | _ => simp [Call.stage] at hstage

namespace Repository

/-- The action is an answer to a call. -/
def Action.isAnswer : Action → Bool
  | .resume _ _ => true
  | _ => false

/-- All calls have ended. -/
def Idle (s : Repository) : Prop := ∀ c ∈ s.calls, c.Ended

variable {s t : Repository} {a : Action}

/-- The sums of the ranks of the calls. -/
def ranks : List (Repository → ℕ) :=
  [fun s => (s.calls.map Call.stage).sum, fun s => (s.calls.map Call.flags).sum]

theorem drops_of_isAnswer (ha : a.isAnswer) (h : machine.step s a = some t) : Drops ranks s t := by
  cases Step.of_step h with
  | login => cases ha
  | logOut => cases ha
  | start hc => cases hc <;> cases ha
  | @fire i r c o hc ho =>
    exact (ho.drops.sum_set hc).map (f := Repository.calls) (s := s) (t := s.fire i c r o)
  | stop => cases ha

/-- A call that has not ended can be answered. -/
theorem exists_resume (s : Repository) {c : Call} (hc : ¬c.Ended) :
    ∃ r o, c.resume s.db s.currentUser r = some o ∧ o.issued.Nodup ∧
      ∀ key ∈ o.issued, key ∉ s.issued ∧ isValidPathString key := by
  cases c with
  | putData d fromID toID timestamp => exact ⟨.putData true, _, rfl, s.unissued_nil⟩
  | downloadURL d fromID toID timestamp => exact ⟨.downloadURL none, _, rfl, s.unissued_nil⟩
  | readPointer upload =>
    obtain ⟨location, key, hne, hlocation, hkey⟩ := s.exists_unissued
    refine ⟨.snapshot ⟨location, key⟩, ?_⟩
    cases hpointer : s.db.pointer upload.currentUserID upload.toID with
    | none =>
      simp only [Call.resume, hpointer]
      exact ⟨_, rfl, by simp [hne], by simp [hlocation, hkey]⟩
    | some node =>
      cases hnode : node.location with
      | none =>
        simp only [Call.resume, hpointer, hnode]
        exact ⟨_, rfl, s.unissued_nil⟩
      | some L =>
        simp only [Call.resume, hpointer, hnode]
        split_ifs
        · exact ⟨_, rfl, by simp, by simp [hkey]⟩
        · exact ⟨_, rfl, s.unissued_nil⟩
  | append upload ref => exact ⟨.write true, _, rfl, s.unissued_nil⟩
  | create upload ref => exact ⟨.write true, _, rfl, s.unissued_nil⟩
  | pointOwn upload ref => exact ⟨.write true, _, rfl, s.unissued_nil⟩
  | pointPeer upload ref => exact ⟨.write true, _, rfl, s.unissued_nil⟩
  | markPointer currentUserID forUserID =>
    refine ⟨.snapshot ⟨"", ""⟩, ?_⟩
    cases hL : (s.db.pointer currentUserID forUserID).bind Value.location with
    | none =>
      simp only [Call.resume, hL]
      exact ⟨_, rfl, s.unissued_nil⟩
    | some L =>
      simp only [Call.resume, hL]
      exact ⟨_, rfl, s.unissued_nil⟩
  | markSnapshot currentUserID location => exact ⟨.snapshot ⟨"", ""⟩, _, rfl, s.unissued_nil⟩
  | markWrites currentUserID location keys =>
    cases keys with
    | nil => exact absurd ⟨rfl, rfl⟩ hc
    | cons key keys => exact ⟨.write true, _, rfl, s.unissued_nil⟩
  | finished => exact absurd ⟨rfl, rfl⟩ hc

/-- No answer is enabled if and only if all calls have ended. -/
theorem settled_iff_idle : machine.Settled (·.isAnswer) s ↔ s.Idle := by
  constructor
  · intro h c hc
    by_contra hended
    obtain ⟨i, hi⟩ := List.getElem?_of_mem hc
    obtain ⟨r, o, ho, hfresh⟩ := s.exists_resume hended
    have hnone := h (.resume i r) rfl
    rw [step_resume hi ho hfresh] at hnone
    cases hnone
  · intro h a ha
    refine Option.eq_none_iff_forall_ne_some.2 fun t ht => ?_
    cases Step.of_step ht with
    | login => cases ha
    | logOut => cases ha
    | start hc => cases hc <;> cases ha
    | fire hc ho => exact ho.not_ended (h _ (List.mem_of_getElem? hc))
    | stop => cases ha

theorem settles : machine.Settles (·.isAnswer) :=
  Machine.settles_of_drops ranks fun _ _ _ ha h => drops_of_isAnswer ha h

end Repository

end MagicChat
