import MagicChat.Repository.Step

/-!
# What a sender is told

One call to `send`, answered by the services at each of its remote steps in one
way or another (`Answers`), and followed to its end (`sent`), from any state of
the repository: any pointer node, of any shape.

The sender should be told once, that the record has been stored if it has, and
that it has not otherwise, with the pointers as they were (`Truthful`). That is
so if and only if the content can be uploaded, the pointer can be read, and it
holds a location that is a path, or there is none and the write succeeds
(`truthful_sent_iff`): on the other paths the callbacks just return or throw, or
ignore the error of the write.
-/

namespace MagicChat

/-- What the services answer to a call to `send`. -/
structure Answers where
  /-- The picture is stored. -/
  putData : Bool
  /-- The link to the picture. -/
  downloadURL : Option String
  /-- The auto ids drawn when the pointer is read, if it is. -/
  readPointer : Option Reference
  /-- The record is written. -/
  write : Bool
  /-- The pointer of the sender is written, after that of a first record. -/
  pointOwn : Bool
  /-- The pointer of the addressee is. -/
  pointPeer : Bool
  deriving DecidableEq

namespace Answers

/-- The answer to a call, where it waits. -/
def answer (o : Answers) : Call → Option Response
  | .putData .. => some (.putData o.putData)
  | .downloadURL .. => some (.downloadURL o.downloadURL)
  | .readPointer _ => o.readPointer.map .snapshot
  | .append .. => some (.write o.write)
  | .create .. => some (.write o.write)
  | .pointOwn .. => some (.write o.pointOwn)
  | .pointPeer .. => some (.write o.pointPeer)
  | _ => none

/-- The content of a message as it is uploaded, if it can be: a photo needs a
    picture that is encoded and stored, and a link to it. -/
def content (o : Answers) (message : Message) : Option Field :=
  match message.type, message.content with
  | .photo, .image image => if image.hasJPEG ∧ o.putData then o.downloadURL.map .string else none
  | .photo, .field _ => none
  | _, .field content => some content
  | _, .image _ => none

/-- The record of a message as it is uploaded. -/
def record (o : Answers) (fromID toID : UserID) (message : Message) : Option Fields :=
  (o.content message).map fun content =>
    messageValues message.type content fromID toID message.timestamp

/-- The content can be uploaded, the pointer is read, and either it holds a location
    that is a path, or there is none and the record is written. -/
def Delivers (o : Answers) (db : Database) (fromID toID : UserID) (message : Message) : Prop :=
  (o.content message).isSome ∧ o.readPointer.isSome ∧
    ((db.location fromID toID).any isValidPathString ∨
      (db.pointer fromID toID = none ∧ o.write = true))

instance (o : Answers) (db : Database) (fromID toID : UserID) (message : Message) :
    Decidable (o.Delivers db fromID toID message) :=
  inferInstanceAs (Decidable (_ ∧ _ ∧ (_ ∨ (_ ∧ _))))

end Answers

namespace Repository

/-- The auto ids are new, and such as are drawn. -/
def Unused (s : Repository) (id : Reference) : Prop :=
  id.location ≠ id.key ∧ (id.location ∉ s.issued ∧ isValidPathString id.location) ∧
    (id.key ∉ s.issued ∧ isValidPathString id.key) ∧
    ∀ location, s.db.message ⟨location, id.key⟩ = none

/-- The call `i` after at most `n` answers. -/
def settle (o : Answers) (i : ℕ) : ℕ → Repository → Repository
  | 0, s => s
  | n + 1, s =>
    match (s.calls[i]?.bind o.answer).bind fun r => step s (.resume i r) with
    | some t => settle o i n t
    | none => s

/-- The repository after a call to `send` on a device. -/
def sent (s : Repository) (o : Answers) (d : Device) (message : Message) (toID : UserID) :
    Repository :=
  -- The longest way: a photo, and then a first record with its two pointers.
  settle o s.calls.length 6 (s.start (MagicChat.send d (s.currentUser d) message toID))

/-- The record is stored in `t`, at a reference that is free in `s`. -/
def Stores (s t : Repository) (values : Option Fields) : Prop :=
  ∃ fields ref, values = some fields ∧ s.db.message ref = none ∧
    t.db.message ref = some (.dictionary fields)

/-- The sender `u` is told once, and the truth; and if the record has not been
    stored, no pointer of `u` or of the addressee has changed. -/
def Truthful (s t : Repository) (u toID : UserID) (values : Option Fields) : Prop :=
  (∃ e, t.completions = s.completions ++ [e] ∧ (e.status = true ↔ s.Stores t values)) ∧
    (¬s.Stores t values → ∀ x y, x = u ∨ x = toID → t.db.pointer x y = s.db.pointer x y)

variable {s t : Repository} {o : Answers} {i : ℕ}

/-! ## Following a call -/

/-- What is followed is a run. -/
theorem leads_settle (o : Answers) (i n : ℕ) (s : Repository) :
    machine.Leads s (settle o i n s) := by
  induction n generalizing s with
  | zero => exact .refl s
  | succ n ih =>
    rw [settle]
    cases ht : (s.calls[i]?.bind o.answer).bind fun r => step s (.resume i r) with
    | none => exact .refl s
    | some t =>
      obtain ⟨r, _, hr⟩ := Option.bind_eq_some_iff.1 ht
      have hstep : machine.step s (.resume i r) = some t := hr
      exact (Machine.Leads.of_step hstep).trans (ih t)

/-- A call that is not answered stays where it is. -/
theorem settle_of_answer_eq_none {c : Call} (hc : s.At i c) (ho : o.answer c = none) (n : ℕ) :
    settle o i n s = s := by
  cases n with
  | zero => rfl
  | succ n => rw [settle, hc, Option.bind_some, ho, Option.bind_none]

/-- A call that is answered goes on. -/
theorem settle_succ {c : Call} {r : Response} {out : Outcome} (hc : s.At i c)
    (ho : o.answer c = some r) (hr : c.resume s.db s.currentUser r = some out)
    (hfresh : out.issued.Nodup ∧ ∀ key ∈ out.issued, key ∉ s.issued ∧ isValidPathString key)
    (n : ℕ) : settle o i (n + 1) s = settle o i n (s.fire i c r out) := by
  have hstep : step s (.resume i r) = some (s.fire i c r out) := step_resume hc hr hfresh
  rw [settle, hc, Option.bind_some, ho, Option.bind_some, hstep]

/-! ## What is stored and told -/

theorem not_stores_of_message {values : Option Fields}
    (h : ∀ ref, t.db.message ref = s.db.message ref) : ¬s.Stores t values := by
  rintro ⟨fields, ref, _, hs, ht⟩
  rw [h, hs] at ht
  cases ht

/-- Without a completion the sender is not told. -/
theorem not_truthful_of_completions {u toID : UserID} {values : Option Fields}
    (h : t.completions = s.completions) : ¬s.Truthful t u toID values := by
  rintro ⟨⟨e, he, _⟩, _⟩
  rw [h] at he
  simp at he

/-- A call that gets no answer tells nothing. -/
theorem not_truthful_of_answer_eq_none {c : Call} {u toID : UserID} {values : Option Fields}
    (hc : s.At i c) (ho : o.answer c = none) (n : ℕ) :
    ¬s.Truthful (settle o i n s) u toID values := by
  rw [settle_of_answer_eq_none hc ho]
  exact not_truthful_of_completions rfl

/-- Nothing but the database and the completions matters. -/
theorem truthful_congr {s' : Repository} {u toID : UserID} {values : Option Fields}
    (hdb : s'.db = s.db) (hc : s'.completions = s.completions) :
    s'.Truthful t u toID values ↔ s.Truthful t u toID values := by
  rw [Truthful, Truthful, Stores, Stores, hdb, hc]

/-- A callback that writes nothing and calls no completion tells nothing: what
    counts is what the call does next. -/
theorem truthful_settle_succ_iff {c : Call} {r : Response} {out : Outcome} {u toID : UserID}
    {values : Option Fields} {n : ℕ} {P : Prop} (hc : s.At i c) (ho : o.answer c = some r)
    (hr : c.resume s.db s.currentUser r = some out)
    (hfresh : out.issued.Nodup ∧ ∀ key ∈ out.issued, key ∉ s.issued ∧ isValidPathString key)
    (hdb : written s.db c r = s.db) (hout : out.completion = none)
    (hnext : ∀ t : Repository, t.At i out.next → t.db = s.db → t.currentUser = s.currentUser →
      t.issued = out.issued ++ s.issued → (t.Truthful (settle o i n t) u toID values ↔ P)) :
    s.Truthful (settle o i (n + 1) s) u toID values ↔ P := by
  rw [settle_succ hc ho hr hfresh]
  refine (truthful_congr hdb ?_).symm.trans (hnext _ (at_set_self hc) hdb rfl rfl)
  rw [fire, hout]
  exact List.append_nil _

/-! ## The upload -/

/-- The call after `uploadMessage` has found a location. -/
theorem truthful_append {up : Upload} {ref : Reference} (hi : s.At i (.append up ref))
    (href : s.db.message ref = none) (n : ℕ) :
    s.Truthful (settle o i (n + 1) s) up.currentUserID up.toID (some up.values) := by
  rw [settle_succ (o := o) hi rfl rfl s.unissued_nil,
    settle_of_answer_eq_none (at_set_self hi) rfl]
  cases hw : o.write with
  | true =>
    have hstored : s.Stores (s.fire i (.append up ref) (.write true)
        { next := .finished, completion := some { upload := up, ref, status := true } })
        (some up.values) :=
      ⟨up.values, ref, rfl, href, (Database.message_setMessage ..).trans (if_pos rfl)⟩
    exact ⟨⟨_, rfl, iff_of_true rfl hstored⟩, fun hn => absurd hstored hn⟩
  | false =>
    exact ⟨⟨_, rfl, iff_of_false Bool.false_ne_true (not_stores_of_message fun _ => rfl)⟩,
      fun _ _ _ _ => rfl⟩

theorem message_written_of_pointer {db : Database} {c : Call} {x y : UserID} {location : Key}
    (hc : c.write? = some (.updatePointer x y location)) (ok : Bool) (ref : Reference) :
    (written db c (.write ok)).message ref = db.message ref := by
  cases ok with
  | true => rw [written, hc]; rfl
  | false => rfl

/-- The call after `uploadMessage` has found no pointer: it reports success. -/
theorem truthful_create_iff {up : Upload} {ref : Reference} (hi : s.At i (.create up ref))
    (href : s.db.message ref = none) (n : ℕ) :
    s.Truthful (settle o i (n + 3) s) up.currentUserID up.toID (some up.values) ↔
      o.write = true := by
  -- The record, the pointer of the sender and that of the addressee are written in turn.
  rw [settle_succ (o := o) hi rfl rfl (unissued_nil _)]
  rw [settle_succ (o := o) (at_set_self hi) rfl rfl (unissued_nil _)]
  rw [settle_succ (o := o) (at_set_self (at_set_self hi)) rfl rfl (unissued_nil _)]
  rw [settle_of_answer_eq_none (at_set_self (at_set_self (at_set_self hi))) rfl]
  generalize ht : fire _ i (.pointPeer up ref) _ _ = t
  have hmessage : ∀ ref', t.db.message ref' =
      (written s.db (.create up ref) (.write o.write)).message ref' := fun ref' => by
    rw [← ht]
    exact (message_written_of_pointer rfl _ ref').trans (message_written_of_pointer rfl _ ref')
  have hcompletions : t.completions = s.completions ++ [{ upload := up, ref, status := true }] := by
    rw [← ht]
    simp [fire]
  cases hw : o.write with
  | true =>
    have hstored : s.Stores t (some up.values) := by
      refine ⟨up.values, ref, rfl, href, ?_⟩
      rw [hmessage, hw]
      exact (Database.message_setMessage ..).trans (if_pos rfl)
    exact iff_of_true ⟨⟨_, hcompletions, iff_of_true rfl hstored⟩, fun hn => absurd hstored hn⟩ rfl
  | false =>
    -- The completion says that a record has been stored, and none has.
    refine iff_of_false ?_ Bool.false_ne_true
    rintro ⟨⟨e, he, hstatus⟩, _⟩
    obtain rfl := List.singleton_inj.1 (List.append_cancel_left (hcompletions.symm.trans he))
    refine not_stores_of_message (fun ref' => ?_) (hstatus.1 rfl)
    rw [hmessage, hw]
    rfl

/-- The call to `uploadMessage`. -/
theorem truthful_readPointer_iff {up : Upload} (hi : s.At i (.readPointer up))
    (hid : ∀ id, o.readPointer = some id → s.Unused id) (n : ℕ) :
    s.Truthful (settle o i (n + 4) s) up.currentUserID up.toID (some up.values) ↔
      o.readPointer.isSome ∧ ((s.db.location up.currentUserID up.toID).any isValidPathString ∨
        (s.db.pointer up.currentUserID up.toID = none ∧ o.write = true)) := by
  cases hread : o.readPointer with
  | none =>
    -- Without an answer the completion is never called.
    have hanswer : o.answer (.readPointer up) = none := by
      rw [Answers.answer, hread]
      rfl
    exact iff_of_false (not_truthful_of_answer_eq_none hi hanswer _) (by simp)
  | some id =>
    obtain ⟨hne, hlocation, hkey, hfree⟩ := hid id hread
    have hanswer : o.answer (.readPointer up) = some (.snapshot id) := by
      rw [Answers.answer, hread]
      rfl
    rw [Database.location]
    cases hpointer : s.db.pointer up.currentUserID up.toID with
    | none =>
      have hresume : (Call.readPointer up).resume s.db s.currentUser (.snapshot id) =
          some { next := .create up id, issued := [id.location, id.key] } := by
        simp only [Call.resume, hpointer]
      refine truthful_settle_succ_iff hi hanswer hresume (by simp [hne, hlocation, hkey]) rfl rfl ?_
      intro t ht hdb _ _
      rw [truthful_create_iff ht (hdb ▸ hfree id.location)]
      simp
    | some node =>
      cases hL : node.location with
      | none =>
        -- The guard on the node returns, and the completion is never called.
        have hresume : (Call.readPointer up).resume s.db s.currentUser (.snapshot id) =
            some { next := .finished } := by
          simp only [Call.resume, hpointer, hL]
        refine truthful_settle_succ_iff hi hanswer hresume (by simp) rfl rfl fun t ht _ _ _ => ?_
        exact iff_of_false (not_truthful_of_answer_eq_none ht rfl _) (by simp [hL])
      | some location =>
        by_cases hvalid : isValidPathString location = true
        · have hresume : (Call.readPointer up).resume s.db s.currentUser (.snapshot id) =
              some { next := .append up ⟨location, id.key⟩, issued := [id.key] } := by
            simp only [Call.resume, hpointer, hL, if_pos hvalid]
          refine truthful_settle_succ_iff hi hanswer hresume (by simp [hkey]) rfl rfl ?_
          intro t ht hdb _ _
          exact iff_of_true (truthful_append ht (hdb ▸ hfree location) (n + 2))
            (by simp [hL, hvalid])
        · -- `child` throws, and the completion is never called.
          have hresume : (Call.readPointer up).resume s.db s.currentUser (.snapshot id) =
              some { next := .finished } := by
            simp only [Call.resume, hpointer, hL, if_neg hvalid]
          refine truthful_settle_succ_iff hi hanswer hresume (by simp) rfl rfl fun t ht _ _ _ => ?_
          exact iff_of_false (not_truthful_of_answer_eq_none ht rfl _) (by simp [hL, hvalid])

/-! ## The call -/

variable {d : Device} {u toID : UserID} {message : Message}

theorem truthful_photo_iff (hu : s.currentUser d = some u) {timestamp : Int}
    (hi : s.At i (.putData d u toID timestamp))
    (hid : ∀ id, o.readPointer = some id → s.Unused id) (n : ℕ) :
    s.Truthful (settle o i (n + 6) s) u toID
        ((if o.putData then o.downloadURL.map Field.string else none).map fun content =>
          messageValues .photo content u toID timestamp) ↔
      (if o.putData then o.downloadURL.map Field.string else none).isSome ∧ o.readPointer.isSome ∧
        ((s.db.location u toID).any isValidPathString ∨
          (s.db.pointer u toID = none ∧ o.write = true)) := by
  refine truthful_settle_succ_iff hi rfl rfl s.unissued_nil rfl rfl fun t ht hdb hcu hissued => ?_
  cases hput : o.putData with
  | false =>
    rw [hput] at ht
    exact iff_of_false (not_truthful_of_answer_eq_none ht rfl _) (by simp)
  | true =>
    rw [hput] at ht
    cases hpath : o.downloadURL with
    | none =>
      have hanswer : o.answer (.downloadURL d u toID timestamp) = some (.downloadURL none) := by
        rw [Answers.answer, hpath]
      refine truthful_settle_succ_iff ht hanswer rfl t.unissued_nil rfl rfl fun t' ht' _ _ _ => ?_
      exact iff_of_false (not_truthful_of_answer_eq_none ht' rfl _) (by simp)
    | some path =>
      have hanswer : o.answer (.downloadURL d u toID timestamp) =
          some (.downloadURL (some path)) := by
        rw [Answers.answer, hpath]
      refine truthful_settle_succ_iff ht hanswer rfl t.unissued_nil rfl rfl ?_
      intro t' ht' hdb' _ hissued'
      -- `uploadMessage` asks again who is signed in: still the sender, as nobody else acts.
      have huser : t.currentUser d = some u := hcu ▸ hu
      simp only [uploadMessage, huser] at ht'
      have hunused : ∀ id, o.readPointer = some id → t'.Unused id := fun id hread => by
        have hs : s.Unused id := hid id hread
        rwa [Unused, hdb', hdb, hissued', hissued]
      have hupload := truthful_readPointer_iff ht' hunused n
      rw [hdb', hdb] at hupload
      simpa using hupload

/-- A call that is not made tells nothing. -/
theorem not_truthful_finished {values : Option Fields} (n : ℕ) :
    ¬s.Truthful (settle o s.calls.length n (s.start .finished)) u toID values := by
  rw [settle_of_answer_eq_none (at_start_self .finished) rfl]
  exact not_truthful_of_completions rfl

/-- A call to `send` tells the truth, once, if and only if the content can be
    uploaded, the pointer is read, and either it holds a location that is a path, or
    there is none and the record is written. -/
theorem truthful_sent_iff (hu : s.currentUser d = some u) (toID : UserID) (message : Message)
    (hid : ∀ id, o.readPointer = some id → s.Unused id) :
    s.Truthful (s.sent o d message toID) u toID (o.record u toID message) ↔
      o.Delivers s.db u toID message := by
  obtain ⟨type, content, owner, timestamp, isRead⟩ := message
  rw [sent, hu, Answers.record, Answers.Delivers]
  -- A text and a location go to the upload as they are.
  have upload : ∀ type content, s.Truthful (settle o s.calls.length 6 (s.start (.readPointer
      ⟨u, toID, messageValues type content u toID timestamp⟩))) u toID
        (some (messageValues type content u toID timestamp)) ↔
      o.readPointer.isSome ∧ ((s.db.location u toID).any isValidPathString ∨
        (s.db.pointer u toID = none ∧ o.write = true)) := fun type content =>
    truthful_readPointer_iff (s := s.start _) (at_start_self _) hid 2
  cases content with
  | field f =>
    cases type with
    | photo => exact iff_of_false (not_truthful_finished 6) (by simp [Answers.content])
    | text =>
      simp only [Answers.content, Option.map_some, Option.isSome_some, true_and]
      exact upload .text f
    | location =>
      simp only [Answers.content, Option.map_some, Option.isSome_some, true_and]
      exact upload .location f
  | image image =>
    cases type with
    | photo =>
      by_cases hjpeg : image.hasJPEG = true
      · have hphoto := truthful_photo_iff (s := s.start (.putData d u toID timestamp)) hu
          (at_start_self _) hid 0
        simp only [MagicChat.send, Answers.content, hjpeg, if_true, true_and]
        exact hphoto
      · simp only [MagicChat.send, hjpeg]
        exact iff_of_false (not_truthful_finished 6) (by simp [Answers.content, hjpeg])
    | text => exact iff_of_false (not_truthful_finished 6) (by simp [Answers.content])
    | location => exact iff_of_false (not_truthful_finished 6) (by simp [Answers.content])

/-- `u` is signed in, and nobody has written yet. -/
def signedIn : Repository :=
  { machine.init with currentUser := Function.update machine.init.currentUser 0 (some "u") }

/-- The answers to a first message: the record is written or not, the pointers are. -/
def firstAnswers (write : Bool) : Answers :=
  { putData := true, downloadURL := none, readPointer := some ⟨"L", "k"⟩, write,
    pointOwn := true, pointPeer := true }

/-- The text of `firstAnswers`. -/
def firstText : Message := composeMessage .text (.field (.string "hi")) 1

theorem unused_signedIn (write : Bool) (id : Reference)
    (h : (firstAnswers write).readPointer = some id) : signedIn.Unused id := by
  obtain rfl := Option.some.inj h
  exact ⟨by decide, ⟨List.not_mem_nil, rfl⟩, ⟨List.not_mem_nil, rfl⟩, fun _ => rfl⟩

/-- A first message that is written is reported so. -/
theorem truthful_firstText : signedIn.Truthful (signedIn.sent (firstAnswers true) 0 firstText "v")
    "u" "v" ((firstAnswers true).record "u" "v" firstText) :=
  (truthful_sent_iff rfl "v" firstText (unused_signedIn true)).2 (by decide)

/-- One that is not written is reported as well, and the pointers lead nowhere. -/
theorem not_truthful_firstText :
    ¬signedIn.Truthful (signedIn.sent (firstAnswers false) 0 firstText "v") "u" "v"
        ((firstAnswers false).record "u" "v" firstText) ∧
      (signedIn.sent (firstAnswers false) 0 firstText "v").completions.map Completion.status =
        [true] ∧
      (signedIn.sent (firstAnswers false) 0 firstText "v").db.location "u" "v" = some "L" ∧
      (signedIn.sent (firstAnswers false) 0 firstText "v").db.conversations "L" = [] := by
  refine ⟨fun h => ?_, by decide, by decide, by decide⟩
  have hread := (truthful_readPointer_iff (s := signedIn.start _) (at_start_self _)
    (unused_signedIn false) 2).1 h
  exact absurd hread.2 (by decide)

end Repository

end MagicChat
