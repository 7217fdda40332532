import MagicChat.Repository.Changes

/-!
# One more first message

From every reachable state, the devices can be led to one in which a user, who
had no conversation before, is about to write the pointer of another one to the
first message (`exists_firstUpload`), under keys that have not been drawn: there are
always users without pointers (`exists_users`).
-/

namespace MagicChat

namespace Repository

variable {s : Repository}

/-- Only these users have pointers. -/
theorem exists_users (h : machine.Reachable s) :
    ∃ xs : List UserID, ∀ x, x ∉ xs → s.db.users x = [] := by
  refine h.invariant (I := fun s => ∃ xs : List UserID, ∀ x, x ∉ xs → s.db.users x = [])
    ⟨[], fun _ _ => rfl⟩ ?_
  rintro s a t hr ⟨xs, hxs⟩ ht
  have hstep := users_step (fresh_of_reachable hr) ht
  by_cases hw : ∃ x y L, s.write? a = some (.updatePointer x y L)
  · obtain ⟨x, y, L, hw⟩ := hw
    refine ⟨x :: xs, fun x' hx' => ?_⟩
    obtain ⟨hne, hx'⟩ := not_or.1 (List.mem_cons.not.1 hx')
    rcases hstep x' with he | ⟨y', L', hw', _⟩
    · rw [he, hxs x' hx']
    · exact absurd (Write.updatePointer.inj (Option.some.inj (hw'.symm.trans hw))).1 hne
  · refine ⟨xs, fun x hx => ?_⟩
    rcases hstep x with he | ⟨y, L, hw', _⟩
    · rw [he, hxs x hx]
    · exact absurd ⟨x, y, L, hw'⟩ hw

/-- Nothing is stored at a location that has not been drawn. -/
theorem Located.conversations_eq_nil (hl : s.Located) {L : Key} (hL : L ∉ s.issued) :
    s.db.conversations L = [] := by
  refine List.eq_nil_iff_forall_not_mem.2 fun ⟨k, v⟩ hmem => hL ?_
  exact hl.messages ⟨L, k⟩ v ((s.db.nodup_conversations L).lookup_eq_some_iff.2 hmem)

/-- The record of the first message of `p` to `u`. -/
def firstValues (p u : UserID) : Fields := messageValues .text (.string "hi") p u 0

/-- The first message of `p` to `u`, up to the write of the pointer of `u`. -/
theorem exists_firstUpload (d : Device) {p u : UserID} {L k : Key} (hp : s.db.pointer p u = none)
    (hL : isValidPathString L ∧ L ∉ s.issued) (hk : isValidPathString k ∧ k ∉ s.issued)
    (hLk : L ≠ k) :
    ∃ t n, machine.Leads s t ∧ t.At n (.pointPeer ⟨p, u, firstValues p u⟩ ⟨L, k⟩) ∧
      t.currentUser = Function.update s.currentUser d (some p) ∧
      t.db = (s.db.after (.setMessage ⟨L, k⟩ (firstValues p u))).after (.updatePointer p u L) := by
  -- `p` logs in and sends; the pointer is read, the record and the first pointer are written.
  let upload : Upload := ⟨p, u, firstValues p u⟩
  let ref : Reference := ⟨L, k⟩
  let s₁ : Repository := { s with currentUser := Function.update s.currentUser d (some p) }
  let s₂ := s₁.start (.readPointer upload)
  let n := s.calls.length
  let s₃ := s₂.fire n (.readPointer upload) (.snapshot ref)
    { next := .create upload ref, issued := [L, k] }
  let s₄ := s₃.fire n (.create upload ref) (.write true)
    { next := .pointOwn upload ref, completion := some { upload, ref, status := true } }
  let s₅ := s₄.fire n (.pointOwn upload ref) (.write true) { next := .pointPeer upload ref }
  have hlogin : machine.step s (.loginUser d p) = some s₁ := rfl
  have hsend : machine.step s₁ (.send d (composeMessage .text (.field (.string "hi")) 0) u) =
      some s₂ := by
    have hd : s₁.currentUser d = some p := Function.update_self ..
    simp only [machine, step, hd, send, composeMessage, uploadMessage]
    rfl
  have h₂ : s₂.At n (.readPointer upload) := by simp [At, s₂, n, start, s₁]
  have hread : machine.step s₂ (.resume n (.snapshot ref)) = some s₃ := by
    refine step_resume h₂ ?_ ⟨by simpa using hLk, by simp [s₂, start, s₁, hL, hk]⟩
    have hnone : s₂.db.pointer upload.currentUserID upload.toID = none := hp
    simp only [Call.resume, hnone]
    rfl
  have h₃ : s₃.At n (.create upload ref) := at_set_self h₂
  have hcreate : machine.step s₃ (.resume n (.write true)) = some s₄ :=
    step_resume h₃ rfl s₃.unissued_nil
  have h₄ : s₄.At n (.pointOwn upload ref) := at_set_self h₃
  have hpoint : machine.step s₄ (.resume n (.write true)) = some s₅ :=
    step_resume h₄ rfl s₄.unissued_nil
  exact ⟨s₅, n, (Machine.Leads.of_step hlogin).trans ((Machine.Leads.of_step hsend).trans
    ((Machine.Leads.of_step hread).trans ((Machine.Leads.of_step hcreate).trans
      (.of_step hpoint)))), at_set_self h₄, rfl, rfl⟩

end Repository

end MagicChat
