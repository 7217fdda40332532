import MagicChat.Library.Lists
import MagicChat.Repository.Basic

/-!
# The steps of the message repository

What a step of the repository can do, once and for all: the calls it can start
(`Starts`), what their callbacks can do (`Resumes`), and the resulting states
(`Step`). Every invariant of the repository is proved by cases on `Step`,
through `Step.of_step`, without looking into the definitions again.
-/

namespace MagicChat

/-! ## Starting a call -/

/-- The calls an action can start, while `currentUser` are signed in. -/
inductive Starts (currentUser : Device → Option UserID) : Repository.Action → Call → Prop
  | noSend {d : Device} {message : Message} {toID : UserID} :
    Starts currentUser (.send d message toID) .finished
  | noUpload {d : Device} {values : Fields} {toID : UserID} :
    Starts currentUser (.uploadMessage d values toID) .finished
  | noMark {d : Device} {forUserID : UserID} :
    Starts currentUser (.markMessagesRead d forUserID) .finished
  | photo {d : Device} {fromID toID : UserID} {message : Message} :
    currentUser d = some fromID →
    Starts currentUser (.send d message toID) (.putData d fromID toID message.timestamp)
  | send {d : Device} {fromID toID : UserID} {message : Message} {content : Field} :
    currentUser d = some fromID →
    Starts currentUser (.send d message toID) (.readPointer
      ⟨fromID, toID, messageValues message.type content fromID toID message.timestamp⟩)
  | upload {d : Device} {fromID toID : UserID} {values : Fields} :
    currentUser d = some fromID →
    Starts currentUser (.uploadMessage d values toID) (.readPointer ⟨fromID, toID, values⟩)
  | mark {d : Device} {currentUserID forUserID : UserID} :
    currentUser d = some currentUserID →
    Starts currentUser (.markMessagesRead d forUserID) (.markPointer currentUserID forUserID)

theorem starts_send (currentUser : Device → Option UserID) (d : Device) (message : Message)
    (toID : UserID) :
    Starts currentUser (.send d message toID) (send d (currentUser d) message toID) := by
  obtain ⟨type, content, owner, timestamp, isRead⟩ := message
  cases hd : currentUser d with
  | none => exact .noSend
  | some fromID =>
    cases content with
    | field f =>
      cases type with
      | photo => exact .noSend
      | text => exact .send hd
      | location => exact .send hd
    | image i =>
      cases type with
      | photo =>
        simp only [send]
        split_ifs
        · exact .photo hd
        · exact .noSend
      | text => exact .noSend
      | location => exact .noSend

theorem starts_uploadMessage (currentUser : Device → Option UserID) (d : Device) (values : Fields)
    (toID : UserID) :
    Starts currentUser (.uploadMessage d values toID)
      (uploadMessage (currentUser d) values toID) := by
  cases hd : currentUser d with
  | none => exact .noUpload
  | some fromID => exact .upload hd

theorem starts_markMessagesRead (currentUser : Device → Option UserID) (d : Device)
    (forUserID : UserID) :
    Starts currentUser (.markMessagesRead d forUserID)
      (markMessagesRead (currentUser d) forUserID) := by
  cases hd : currentUser d with
  | none => exact .noMark
  | some currentUserID => exact .mark hd

/-! ## Firing a callback -/

/-- What a callback can do, for each place where a call can wait. -/
inductive Resumes (db : Database) (currentUser : Device → Option UserID) :
    Call → Response → Outcome → Prop
  | stored {d : Device} {fromID toID : UserID} {timestamp : Int} :
    Resumes db currentUser (.putData d fromID toID timestamp) (.putData true)
      { next := .downloadURL d fromID toID timestamp }
  | notStored {d : Device} {fromID toID : UserID} {timestamp : Int} :
    Resumes db currentUser (.putData d fromID toID timestamp) (.putData false)
      { next := .finished }
  | linked {d : Device} {fromID toID currentUserID : UserID} {timestamp : Int} {path : String} :
    currentUser d = some currentUserID →
    Resumes db currentUser (.downloadURL d fromID toID timestamp) (.downloadURL (some path))
      { next := .readPointer ⟨currentUserID, toID,
          messageValues .photo (.string path) fromID toID timestamp⟩ }
  | notLinked {d : Device} {fromID toID : UserID} {timestamp : Int} {path : Option String} :
    Resumes db currentUser (.downloadURL d fromID toID timestamp) (.downloadURL path)
      { next := .finished }
  | located {upload : Upload} {autoID : Reference} {location : Key} :
    db.location upload.currentUserID upload.toID = some location →
    Resumes db currentUser (.readPointer upload) (.snapshot autoID)
      { next := .append upload ⟨location, autoID.key⟩, issued := [autoID.key] }
  | malformed {upload : Upload} {autoID : Reference} :
    db.pointer upload.currentUserID upload.toID ≠ none →
    Resumes db currentUser (.readPointer upload) (.snapshot autoID) { next := .finished }
  | missing {upload : Upload} {autoID : Reference} :
    db.pointer upload.currentUserID upload.toID = none →
    Resumes db currentUser (.readPointer upload) (.snapshot autoID)
      { next := .create upload autoID, issued := [autoID.location, autoID.key] }
  | appended {upload : Upload} {ref : Reference} {ok : Bool} :
    Resumes db currentUser (.append upload ref) (.write ok)
      { next := .finished, completion := some { upload, ref, status := ok } }
  | created {upload : Upload} {ref : Reference} {ok : Bool} :
    Resumes db currentUser (.create upload ref) (.write ok)
      { next := .pointOwn upload ref, completion := some { upload, ref, status := true } }
  | ownPointed {upload : Upload} {ref : Reference} {ok : Bool} :
    Resumes db currentUser (.pointOwn upload ref) (.write ok) { next := .pointPeer upload ref }
  | peerPointed {upload : Upload} {ref : Reference} {ok : Bool} :
    Resumes db currentUser (.pointPeer upload ref) (.write ok) { next := .finished }
  | markLocated {currentUserID forUserID : UserID} {location : Key} {autoID : Reference} :
    db.location currentUserID forUserID = some location →
    Resumes db currentUser (.markPointer currentUserID forUserID) (.snapshot autoID)
      { next := .markSnapshot currentUserID location }
  | unmarked {currentUserID forUserID : UserID} {autoID : Reference} :
    Resumes db currentUser (.markPointer currentUserID forUserID) (.snapshot autoID)
      { next := .finished }
  | snapped {currentUserID : UserID} {location : Key} {autoID : Reference} :
    Resumes db currentUser (.markSnapshot currentUserID location) (.snapshot autoID)
      { next := .markWrites currentUserID location
          (keysToMark currentUserID (db.conversations location)) }
  | marked {currentUserID : UserID} {location key : Key} {keys : List Key} {ok : Bool} :
    Resumes db currentUser (.markWrites currentUserID location (key :: keys)) (.write ok)
      { next := .markWrites currentUserID location keys }

variable {db : Database} {currentUser : Device → Option UserID}

theorem resumes_readPointer {upload : Upload} {autoID : Reference} {o : Outcome}
    (h : (Call.readPointer upload).resume db currentUser (.snapshot autoID) = some o) :
    Resumes db currentUser (.readPointer upload) (.snapshot autoID) o := by
  simp only [Call.resume] at h
  split at h
  · next node hnode =>
    split at h
    · next location hlocation =>
      split_ifs at h
      · obtain rfl := Option.some.inj h
        exact .located (by rw [Database.location, hnode]; exact hlocation)
      · obtain rfl := Option.some.inj h
        exact .malformed (by simp [hnode])
    · obtain rfl := Option.some.inj h
      exact .malformed (by simp [hnode])
  · next hnode =>
    obtain rfl := Option.some.inj h
    exact .missing hnode

theorem resumes_downloadURL {d : Device} {fromID toID : UserID} {timestamp : Int}
    {path : Option String} {o : Outcome}
    (h : (Call.downloadURL d fromID toID timestamp).resume db currentUser (.downloadURL path) =
      some o) :
    Resumes db currentUser (.downloadURL d fromID toID timestamp) (.downloadURL path) o := by
  cases path with
  | none =>
    obtain rfl := Option.some.inj h
    exact .notLinked
  | some path =>
    obtain rfl := Option.some.inj h
    cases hd : currentUser d with
    | none =>
      simp only [uploadMessage]
      exact .notLinked
    | some currentUserID =>
      simp only [uploadMessage]
      exact .linked hd

theorem resumes_markPointer {currentUserID forUserID : UserID} {autoID : Reference} {o : Outcome}
    (h : (Call.markPointer currentUserID forUserID).resume db currentUser (.snapshot autoID) =
      some o) :
    Resumes db currentUser (.markPointer currentUserID forUserID) (.snapshot autoID) o := by
  simp only [Call.resume] at h
  split at h
  · next location hlocation =>
    obtain rfl := Option.some.inj h
    exact .markLocated hlocation
  · obtain rfl := Option.some.inj h
    exact .unmarked

theorem resumes_of_resume {c : Call} {r : Response} {o : Outcome}
    (h : c.resume db currentUser r = some o) : Resumes db currentUser c r o := by
  cases c with
  | putData d fromID toID timestamp =>
    cases r with
    | putData ok =>
      obtain rfl := Option.some.inj h
      cases ok with
      | true => exact .stored
      | false => exact .notStored
    | _ => cases h
  | downloadURL d fromID toID timestamp =>
    cases r with
    | downloadURL path => exact resumes_downloadURL h
    | _ => cases h
  | readPointer upload =>
    cases r with
    | snapshot autoID => exact resumes_readPointer h
    | _ => cases h
  | append upload ref =>
    cases r with
    | write ok => exact Option.some.inj h ▸ .appended
    | _ => cases h
  | create upload ref =>
    cases r with
    | write ok => exact Option.some.inj h ▸ .created
    | _ => cases h
  | pointOwn upload ref =>
    cases r with
    | write ok => exact Option.some.inj h ▸ .ownPointed
    | _ => cases h
  | pointPeer upload ref =>
    cases r with
    | write ok => exact Option.some.inj h ▸ .peerPointed
    | _ => cases h
  | markPointer currentUserID forUserID =>
    cases r with
    | snapshot autoID => exact resumes_markPointer h
    | _ => cases h
  | markSnapshot currentUserID location =>
    cases r with
    | snapshot autoID => exact Option.some.inj h ▸ .snapped
    | _ => cases h
  | markWrites currentUserID location keys =>
    cases keys with
    | nil => cases r <;> cases h
    | cons key keys =>
      cases r with
      | write ok => exact Option.some.inj h ▸ .marked
      | _ => cases h
  | finished => cases r <;> cases h

/-- A completion is called when a record has been written: with the outcome, or,
    where the pointers are still to be written, in any case. -/
theorem Resumes.completion {c : Call} {r : Response} {o : Outcome}
    (h : Resumes db currentUser c r o) {e : Completion} (he : o.completion = some e) :
    (c = .append e.upload e.ref ∧ r = .write e.status) ∨
      (c = .create e.upload e.ref ∧ o.next = .pointOwn e.upload e.ref ∧ ∃ ok, r = .write ok) := by
  cases h with
  | appended => exact .inl (Option.some.inj he ▸ ⟨rfl, rfl⟩)
  | created => exact .inr (Option.some.inj he ▸ ⟨rfl, rfl, _, rfl⟩)
  | _ => cases he

namespace Repository

/-- The call `i` waits at `c`. -/
abbrev At (s : Repository) (i : ℕ) (c : Call) : Prop := s.calls[i]? = some c

/-! ## Steps -/

/-- What a step from `s` can lead to. -/
inductive Step (s : Repository) : Action → Repository → Prop
  | login {d : Device} {u : UserID} :
    Step s (.loginUser d u) { s with currentUser := Function.update s.currentUser d (some u) }
  | logOut {d : Device} :
    Step s (.logOutUser d) { s with currentUser := Function.update s.currentUser d none }
  | start {a : Action} {c : Call} : Starts s.currentUser a c → Step s a (s.start c)
  | fire {i : ℕ} {r : Response} {c : Call} {o : Outcome} :
    s.At i c → Resumes s.db s.currentUser c r o → o.issued.Nodup →
    (∀ key ∈ o.issued, key ∉ s.issued) → (∀ key ∈ o.issued, isValidPathString key) →
    Step s (.resume i r) (s.fire i c r o)
  | stop {i : ℕ} : Step s (.stop i) { s with calls := s.calls.set i .finished }

theorem Step.of_step {s t : Repository} {a : Action} (h : machine.step s a = some t) :
    s.Step a t := by
  change s.step a = some t at h
  cases a with
  | loginUser d u => exact Option.some.inj h ▸ .login
  | logOutUser d => exact Option.some.inj h ▸ .logOut
  | send d message toID => exact Option.some.inj h ▸ .start (starts_send ..)
  | uploadMessage d values toID => exact Option.some.inj h ▸ .start (starts_uploadMessage ..)
  | markMessagesRead d forUserID => exact Option.some.inj h ▸ .start (starts_markMessagesRead ..)
  | resume i r =>
    obtain ⟨c, hc, h⟩ := Option.bind_eq_some_iff.1 h
    obtain ⟨o, ho, h⟩ := Option.bind_eq_some_iff.1 h
    split_ifs at h with hfresh
    obtain rfl := Option.some.inj h
    exact .fire hc (resumes_of_resume ho) hfresh.1 (fun key hkey => (hfresh.2 key hkey).1)
      fun key hkey => (hfresh.2 key hkey).2
  | stop i =>
    simp only [step] at h
    split_ifs at h
    exact Option.some.inj h ▸ .stop

variable {s : Repository}

/-- A service can answer a call, with valid keys that have not been drawn. -/
theorem step_resume {i : ℕ} {c : Call} {r : Response} {o : Outcome} (hc : s.At i c)
    (ho : c.resume s.db s.currentUser r = some o)
    (hfresh : o.issued.Nodup ∧ ∀ key ∈ o.issued, key ∉ s.issued ∧ isValidPathString key) :
    machine.step s (.resume i r) = some (s.fire i c r o) := by
  change s.step (.resume i r) = _
  simp only [step, hc, ho, Option.bind_eq_bind, Option.bind_some]
  rw [if_pos hfresh]

/-- A callback that draws no keys can fire. -/
theorem unissued_nil (s : Repository) :
    ([] : List Key).Nodup ∧ ∀ key ∈ ([] : List Key), key ∉ s.issued ∧ isValidPathString key :=
  ⟨.nil, fun _ h => absurd h List.not_mem_nil⟩

/-- There are always two keys that have not been drawn yet. -/
theorem exists_unissued (s : Repository) :
    ∃ location key, location ≠ key ∧ (isValidPathString location ∧ location ∉ s.issued) ∧
      isValidPathString key ∧ key ∉ s.issued := by
  obtain ⟨location, hlocation⟩ := exists_key s.issued
  obtain ⟨key, hvalid, hkey⟩ := exists_key (location :: s.issued)
  obtain ⟨hne, hkey⟩ := not_or.1 (List.mem_cons.not.1 hkey)
  exact ⟨location, key, Ne.symm hne, hlocation, hvalid, hkey⟩

/-! ## The calls after a step -/

theorem at_start {c c' : Call} {j : ℕ} (hj : (s.start c).At j c') :
    s.At j c' ∨ (j = s.calls.length ∧ c' = c) := by
  rw [At, start, List.getElem?_append] at hj
  split_ifs at hj with hlt
  · exact .inl hj
  · obtain ⟨h0, hc⟩ := List.getElem?_eq_some_iff.1 hj
    simp only [List.length_singleton] at h0
    refine .inr ⟨by omega, ?_⟩
    rw [← hc, List.getElem_singleton]

theorem at_start_of_at {c c' : Call} {j : ℕ} (hj : s.At j c') : (s.start c).At j c' := by
  rw [At, start, List.getElem?_append_left (List.getElem?_eq_some_iff.1 hj).1]
  exact hj

theorem at_start_self (c : Call) : (s.start c).At s.calls.length c := by
  rw [At, start, List.getElem?_append_right (Nat.le_refl _), Nat.sub_self, List.getElem?_cons_zero]

/-- A call of which something is read that is not read of a new call was there before. -/
theorem at_of_start {β : Type*} {f : Call → Option β} {c c' : Call} {j : ℕ} {x : β}
    (hc : f c = none) (hj : (s.start c).At j c') (hx : f c' = some x) : s.At j c' := by
  rcases at_start hj with hj | ⟨rfl, rfl⟩
  · exact hj
  · rw [hc] at hx
    cases hx

theorem at_set {c c' : Call} {i j : ℕ} (h : (s.calls.set i c)[j]? = some c') :
    (j = i ∧ c' = c) ∨ (j ≠ i ∧ s.At j c') := Lists.getElem?_set_cases h

/-- A call of which something is read has not been dropped. -/
theorem at_of_stop {β : Type*} {f : Call → Option β} {c' : Call} {i j : ℕ} {x : β}
    (hf : f .finished = none) (hj : (s.calls.set i .finished)[j]? = some c') (hx : f c' = some x) :
    s.At j c' := by
  rcases at_set hj with ⟨_, rfl⟩ | ⟨_, hj⟩
  · rw [hf] at hx
    cases hx
  · exact hj

theorem at_set_self {c c' : Call} {i : ℕ} (h : s.At i c) :
    (s.calls.set i c')[i]? = some c' :=
  List.getElem?_set_self (List.getElem?_eq_some_iff.1 h).1

theorem at_set_of_ne {c c' : Call} {i j : ℕ} (hne : j ≠ i) (hj : s.At j c') :
    (s.calls.set i c)[j]? = some c' :=
  (List.getElem?_set_ne hne.symm).trans hj

/-- A step leaves a call where it waits, drops it, or fires its callback. -/
theorem at_of_step {t : Repository} {a : Action} (h : machine.step s a = some t) {n : ℕ} {c : Call}
    (hn : s.At n c) : t.At n c ∨ t.At n .finished ∨
      ∃ r o, a = .resume n r ∧ Resumes s.db s.currentUser c r o ∧ t.At n o.next := by
  cases Step.of_step h with
  | login => exact .inl hn
  | logOut => exact .inl hn
  | start => exact .inl (at_start_of_at hn)
  | @fire i r c' o hc ho =>
    by_cases hi : i = n
    · subst hi
      obtain rfl : c = c' := Option.some.inj (hn.symm.trans hc)
      exact .inr (.inr ⟨r, o, rfl, ho, at_set_self hn⟩)
    · exact .inl (at_set_of_ne (Ne.symm hi) hn)
  | @stop i =>
    by_cases hi : i = n
    · subst hi
      exact .inr (.inl (at_set_self hn))
    · exact .inl (at_set_of_ne (Ne.symm hi) hn)

/-! ## The writes of a step -/

/-- The write that an action makes in the state `s`, if any. -/
def write? (s : Repository) : Action → Option Write
  | .resume i (.write true) => s.calls[i]?.bind Call.write?
  | _ => none

theorem written_eq {c : Call} {i : ℕ} {r : Response} (hc : s.At i c) :
    written s.db c r = (s.write? (.resume i r)).elim s.db s.db.after := by
  cases r with
  | write ok =>
    cases ok with
    | true => simp [written, write?, hc]
    | false => rfl
  | _ => rfl

/-- The database changes only by the write of a step. -/
theorem Step.db_eq {t : Repository} {a : Action} (h : s.Step a t) :
    t.db = (s.write? a).elim s.db s.db.after := by
  cases h with
  | login => rfl
  | logOut => rfl
  | start hc => cases hc <;> rfl
  | fire hc _ _ _ => exact written_eq hc
  | stop => rfl

end Repository

end MagicChat
