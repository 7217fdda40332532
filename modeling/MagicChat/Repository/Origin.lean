import Mathlib.Data.Set.Function
import MagicChat.Repository.Decoded
import MagicChat.Repository.Idle

/-!
# Where the records come from

Every record of the database is that of one call to `send` or to `uploadMessage`
(`exists_origin`): it says what its sender, who was signed in at the time, has
given to the call, or holds the link that has come to the picture given to it
(`Linked`), and no call has stored two records. This holds in every run, whatever
fails.

Where nothing fails, every such call stores its record (`stored_once`): once the
calls have ended, the records are those of the messages sent, each of them once.
-/

namespace MagicChat

/-- A chat makes the same of records that agree but for the read flag. -/
theorem downloadedMessage_of_sameRecord {v v' : Value} (h : SameRecord v v') (reader : UserID) :
    downloadedMessage reader v' = downloadedMessage reader v := by
  simp only [downloadedMessage, h.fromID, h "type" (by decide), h "content" (by decide),
    h "timestamp" (by decide)]

/-- The call may still store a record. -/
def Call.unstored : Call → Bool
  | .putData .. => true
  | .downloadURL .. => true
  | .readPointer _ => true
  | .append .. => true
  | .create .. => true
  | _ => false

/-- A call about to store a record has not stored it yet. -/
theorem Call.unstored_of_storing {c : Call} {p : Upload × Reference} (h : c.storing = some p) :
    c.unstored = true := by
  cases c <;> first | rfl | simp [Call.storing] at h

theorem Call.not_ended_of_unstored {c : Call} (h : c.unstored = true) : ¬c.Ended := by
  cases c <;> simp [Call.unstored, Call.Ended, Call.stage] at h ⊢

section resumes

variable {db : Database} {currentUser : Device → Option UserID} {c : Call} {r : Response}
  {o : Outcome}

/-- A callback does not start to store a record that its call has stored. -/
theorem Resumes.unstored_next (ho : Resumes db currentUser c r o) (h : c.unstored = false) :
    o.next.unstored = false := by
  cases ho <;> first | rfl | cases h

/-- Once a write has ended, the record of a call is stored, or never will be. -/
theorem Resumes.unstored_of_write {ok : Bool} (ho : Resumes db currentUser c (.write ok) o) :
    o.next.unstored = false := by
  cases ho <;> rfl

end resumes

namespace Repository

/-- In the run `as`, the action `a` has been taken in the state `r`, in which
    `n` calls had been started before. -/
def StartedAt (as : List Action) (n : ℕ) (r : Repository) (a : Action) : Prop :=
  ∃ p, p ++ [a] <+: as ∧ machine.exec p = some r ∧ r.calls.length = n

/-- In the state `r`, the action sends a photo: its sender is signed in, and the
    picture has a JPEG representation. -/
structure SendsPhoto (r : Repository) (d : Device) (fromID : UserID) (message : Message) :
    Prop where
  signedIn : r.currentUser d = some fromID
  type : message.type = .photo
  content : ∃ image, message.content = .image image ∧ image.hasJPEG = true

/-- In the run `as`, the link has come to the picture of the call `n`, while the user
    was signed in on the device. -/
def Linked (as : List Action) (n : ℕ) (d : Device) (path : String) (currentUserID : UserID) :
    Prop :=
  ∃ q s, q ++ [.resume n (.downloadURL (some path))] <+: as ∧ machine.exec q = some s ∧
    s.currentUser d = some currentUserID

/-- What an action in the state `r` is to store, as the call `n` of the run `as`. A
    photo is stored by who is signed in when the link to it comes, with this link. -/
inductive Composes (r : Repository) (as : List Action) (n : ℕ) : Action → Upload → Prop
  | send {d : Device} {fromID toID : UserID} {message : Message} {content : Field} :
    r.currentUser d = some fromID → message.type ≠ .photo → message.content = .field content →
    Composes r as n (.send d message toID)
      ⟨fromID, toID, messageValues message.type content fromID toID message.timestamp⟩
  | photo {d : Device} {fromID toID currentUserID : UserID} {message : Message} {path : String} :
    r.SendsPhoto d fromID message → Linked as n d path currentUserID →
    Composes r as n (.send d message toID)
      ⟨currentUserID, toID, messageValues .photo (.string path) fromID toID message.timestamp⟩
  | uploadMessage {d : Device} {fromID toID : UserID} {values : Fields} :
    r.currentUser d = some fromID →
    Composes r as n (.uploadMessage d values toID) ⟨fromID, toID, values⟩

/-- Where the call `n` of the run `as`, of an action in the state `r`, can wait. -/
inductive Carries (r : Repository) (as : List Action) (n : ℕ) : Action → Call → Prop
  | putData {d : Device} {fromID toID : UserID} {message : Message} :
    r.SendsPhoto d fromID message →
    Carries r as n (.send d message toID) (.putData d fromID toID message.timestamp)
  | downloadURL {d : Device} {fromID toID : UserID} {message : Message} :
    r.SendsPhoto d fromID message →
    Carries r as n (.send d message toID) (.downloadURL d fromID toID message.timestamp)
  | upload {a : Action} {u : Upload} {c : Call} : r.Composes as n a u → c.upload? = some u →
    Carries r as n a c
  | stored {a : Action} {c : Call} : c.unstored = false → Carries r as n a c

variable {as : List Action} {s t r : Repository} {a : Action} {c : Call} {u : Upload} {n : ℕ}

theorem Composes.append (h : r.Composes as n a u) (b : Action) : r.Composes (as ++ [b]) n a u := by
  cases h with
  | send hd htype hcontent => exact .send hd htype hcontent
  | photo hphoto hlink =>
    obtain ⟨q, s, hq, hrest⟩ := hlink
    exact .photo hphoto ⟨q, s, hq.trans (List.prefix_append as [b]), hrest⟩
  | uploadMessage hd => exact .uploadMessage hd

theorem Carries.append (h : r.Carries as n a c) (b : Action) : r.Carries (as ++ [b]) n a c := by
  cases h with
  | putData hphoto => exact .putData hphoto
  | downloadURL hphoto => exact .downloadURL hphoto
  | upload hcomp hu => exact .upload (hcomp.append b) hu
  | stored hn => exact .stored hn

/-! ## The calls -/

theorem StartedAt.append (h : StartedAt as n r a) (b : Action) : StartedAt (as ++ [b]) n r a := by
  obtain ⟨p, hp, hr, hn⟩ := h
  exact ⟨p, hp.trans (List.prefix_append as [b]), hr, hn⟩

/-- An action of a run that goes on is the last one, or one before. -/
theorem StartedAt.of_concat {b : Action} (hs : machine.exec as = some s)
    (h : StartedAt (as ++ [b]) n r a) :
    StartedAt as n r a ∨ (r = s ∧ a = b ∧ s.calls.length = n) := by
  obtain ⟨p, hp, hr, hn⟩ := h
  rcases List.prefix_concat_iff.1 hp with he | hp
  · obtain ⟨rfl, hab⟩ := List.append_inj' he rfl
    obtain rfl : r = s := Option.some.inj (hr.symm.trans hs)
    exact .inr ⟨rfl, List.singleton_inj.1 hab, hn⟩
  · exact .inl ⟨p, hp, hr, hn⟩

/-- An upload that a call carries is the one of its action. -/
theorem Carries.composes (h : r.Carries as n a c) (hopen : c.unstored = true)
    (hu : c.upload? = some u) : r.Composes as n a u := by
  cases h with
  | putData => simp [Call.upload?] at hu
  | downloadURL => simp [Call.upload?] at hu
  | upload hcomp hu' => exact Option.some.inj (hu'.symm.trans hu) ▸ hcomp
  | stored hn => simp [hn] at hopen

/-- The call that an action starts. -/
theorem carries_send (r : Repository) (as : List Action) (n : ℕ) (d : Device) (message : Message)
    (toID : UserID) :
    r.Carries as n (.send d message toID)
      (MagicChat.send d (r.currentUser d) message toID) := by
  obtain ⟨type, content, owner, timestamp, isRead⟩ := message
  cases hd : r.currentUser d with
  | none => exact .stored rfl
  | some fromID =>
    cases content with
    | field content =>
      cases type with
      | photo => exact .stored rfl
      | text => exact .upload (.send hd (fun h => by cases h) rfl) rfl
      | location => exact .upload (.send hd (fun h => by cases h) rfl) rfl
    | image image =>
      cases type with
      | photo =>
        simp only [MagicChat.send]
        split_ifs with hjpeg
        · have hphoto : r.SendsPhoto d fromID
              ⟨.photo, .image image, owner, timestamp, isRead⟩ := ⟨hd, rfl, image, rfl, hjpeg⟩
          exact .putData hphoto
        · exact .stored rfl
      | text => exact .stored rfl
      | location => exact .stored rfl

theorem carries_uploadMessage (r : Repository) (as : List Action) (n : ℕ) (d : Device)
    (values : Fields) (toID : UserID) :
    r.Carries as n (.uploadMessage d values toID)
      (MagicChat.uploadMessage (r.currentUser d) values toID) := by
  cases hd : r.currentUser d with
  | none => exact .stored rfl
  | some fromID => exact .upload (.uploadMessage hd) rfl

/-- A callback goes on with what its call carries. -/
theorem Carries.resumes {resp : Response} {o : Outcome} (h : r.Carries as n a c)
    (hs : machine.exec as = some s) (ho : Resumes s.db s.currentUser c resp o) :
    r.Carries (as ++ [.resume n resp]) n a o.next := by
  cases h with
  | putData hphoto =>
    cases ho with
    | stored => exact .downloadURL hphoto
    | notStored => exact .stored rfl
  | downloadURL hphoto =>
    cases ho with
    | linked hd => exact .upload (.photo hphoto ⟨as, s, List.prefix_rfl, hs, hd⟩) rfl
    | notLinked => exact .stored rfl
  | upload hcomp hu =>
    rcases ho.upload_next hu with hnext | hnext
    · exact .upload (hcomp.append _) hnext
    · exact .stored (by rw [hnext]; rfl)
  | stored hn =>
    cases ho <;> first | exact .stored rfl | cases hn

/-! ## The records -/

/-- Every call carries what its action composes, and so does every record, the
    calls assigned to the records being different, and done with them. -/
structure Traced (as : List Action) (s : Repository) (origin : Reference → ℕ) : Prop where
  calls : ∀ n c, s.At n c → ∃ r a, StartedAt as n r a ∧ r.Carries as n a c
  records : ∀ ref v, s.db.message ref = some v → ∃ r a u c, StartedAt as (origin ref) r a ∧
    r.Composes as (origin ref) a u ∧ SameRecord (.dictionary u.values) v ∧ s.At (origin ref) c ∧
    c.unstored = false
  injOn : Set.InjOn origin {ref | s.db.message ref ≠ none}

theorem Traced.composes {as : List Action} {s : Repository} {origin : Reference → ℕ}
    (h : Traced as s origin) {ref : Reference} {v : Value} (hv : s.db.message ref = some v) :
    ∃ r a u, StartedAt as (origin ref) r a ∧ r.Composes as (origin ref) a u ∧
      SameRecord (.dictionary u.values) v := by
  obtain ⟨r, a, u, _, hstart, hcomp, hsame, _⟩ := h.records ref v hv
  exact ⟨r, a, u, hstart, hcomp, hsame⟩

/-- The call `i` is assigned to the record that it stores. -/
def assign (origin : Reference → ℕ) (i : ℕ) (c : Call) (resp : Response) (ref : Reference) : ℕ :=
  if resp = .write true ∧ c.storing.map Prod.snd = some ref then i else origin ref

variable {origin : Reference → ℕ} {i : ℕ} {resp : Response} {o : Outcome} {ref : Reference}

theorem assign_of_storing (hu : c.storing = some (u, ref)) :
    assign origin i c (.write true) ref = i := by
  simp [assign, hu]

/-- The records that are there keep their calls. -/
theorem Fresh.assign_of_message (hs : s.Fresh) (hc : s.At i c) (h : s.db.message ref ≠ none) :
    assign origin i c resp ref = origin ref := by
  refine if_neg ?_
  rintro ⟨_, hstoring⟩
  obtain ⟨⟨u, ref'⟩, hu, rfl⟩ := Option.map_eq_some_iff.1 hstoring
  exact h ((hs.storing i c u ref' hc hu).2 ref'.location)

theorem Traced.fire (h : Traced as s origin) (hrun : machine.exec as = some s) (hc : s.At i c)
    (ho : Resumes s.db s.currentUser c resp o) :
    Traced (as ++ [.resume i resp]) (s.fire i c resp o) (assign origin i c resp) where
  calls n c' hn := by
    rcases at_set hn with ⟨rfl, rfl⟩ | ⟨_, hn⟩
    · obtain ⟨r, a, hstart, hcarries⟩ := h.calls n c hc
      exact ⟨r, a, hstart.append _, hcarries.resumes hrun ho⟩
    · obtain ⟨r, a, hstart, hcarries⟩ := h.calls n c' hn
      exact ⟨r, a, hstart.append _, hcarries.append _⟩
  records ref v hv := by
    have hs := fresh_of_reachable ⟨as, hrun⟩
    -- A record that was there, with its read flag set or not.
    have keep : ∀ v₀, s.db.message ref = some v₀ →
        (∀ w, SameRecord w v₀ → SameRecord w v) →
        ∃ r a u c', StartedAt (as ++ [.resume i resp]) (assign origin i c resp ref) r a ∧
          r.Composes (as ++ [.resume i resp]) (assign origin i c resp ref) a u ∧
          SameRecord (.dictionary u.values) v ∧
          (s.fire i c resp o).At (assign origin i c resp ref) c' ∧ c'.unstored = false := by
      intro v₀ hv₀ hsame
      obtain ⟨r, a, u, c₀, hstart, hcomp, hrecord, hat, hstored⟩ := h.records ref v₀ hv₀
      rw [hs.assign_of_message hc (by simp [hv₀])]
      by_cases hi : origin ref = i
      · rw [hi] at hat hstart hcomp ⊢
        obtain rfl : c = c₀ := Option.some.inj (hc.symm.trans hat)
        exact ⟨r, a, u, o.next, hstart.append _, hcomp.append _, hsame _ hrecord, at_set_self hc,
          ho.unstored_next hstored⟩
      · exact ⟨r, a, u, c₀, hstart.append _, hcomp.append _, hsame _ hrecord, at_set_of_ne hi hat,
          hstored⟩
    rcases hs.written_message hc resp ref with
      he | ⟨u, rfl, hu, _, hw⟩ | ⟨_, _, v₀, _, _, hv₀, hw⟩
    · exact keep v (he ▸ hv) fun _ hsame => hsame
    · obtain rfl := Option.some.inj (hw.symm.trans hv)
      obtain ⟨r, a, hstart, hcarries⟩ := h.calls i c hc
      rw [assign_of_storing hu]
      exact ⟨r, a, u, o.next, hstart.append _,
        (hcarries.composes (Call.unstored_of_storing hu)
          (Call.upload?_of_ref? (Call.ref?_of_storing hu))).append _,
        .refl _, at_set_self hc, ho.unstored_of_write⟩
    · obtain rfl := Option.some.inj (hw.symm.trans hv)
      exact keep v₀ hv₀ fun _ hsame => hsame.setRead
  injOn := by
    have hs := fresh_of_reachable ⟨as, hrun⟩
    -- The call that stores a record has not stored any of those that are there.
    have hnew : ∀ ref u ref', c.storing = some (u, ref') → s.db.message ref ≠ none →
        origin ref ≠ i := by
      rintro ref u ref' hu href rfl
      obtain ⟨v, hv⟩ := Option.ne_none_iff_exists'.1 href
      obtain ⟨_, _, _, c₀, _, _, _, hat, hstored⟩ := h.records ref v hv
      obtain rfl : c = c₀ := Option.some.inj (hc.symm.trans hat)
      rw [Call.unstored_of_storing hu] at hstored
      cases hstored
    have hcases : ∀ ref, (s.fire i c resp o).db.message ref ≠ none →
        (s.db.message ref ≠ none ∧ assign origin i c resp ref = origin ref) ∨
          ∃ u, c.storing = some (u, ref) ∧ assign origin i c resp ref = i := by
      intro ref href
      rcases hs.written_message hc resp ref with he | ⟨u, rfl, hu, _, _⟩ | ⟨_, _, v₀, _, _, hv₀, _⟩
      · have hold : s.db.message ref ≠ none := he ▸ href
        exact .inl ⟨hold, hs.assign_of_message hc hold⟩
      · exact .inr ⟨u, hu, assign_of_storing hu⟩
      · have hold : s.db.message ref ≠ none := by simp [hv₀]
        exact .inl ⟨hold, hs.assign_of_message hc hold⟩
    intro ref href ref' href' he
    rcases hcases ref href with ⟨hold, hr⟩ | ⟨u, hu, hr⟩ <;>
      rcases hcases ref' href' with ⟨hold', hr'⟩ | ⟨u', hu', hr'⟩
    · exact h.injOn hold hold' (hr.symm.trans (he.trans hr'))
    · exact absurd (hr.symm.trans (he.trans hr')) (hnew ref u' ref' hu' hold)
    · exact absurd (hr'.symm.trans (he.symm.trans hr)) (hnew ref' u ref hu hold')
    · exact congrArg Prod.snd (Option.some.inj (hu.symm.trans hu'))

theorem Traced.start (h : Traced as s origin) (hs : machine.exec as = some s)
    (hc : s.Carries (as ++ [a]) s.calls.length a c) : Traced (as ++ [a]) (s.start c) origin where
  calls n c' hn := by
    rcases at_start hn with hn | ⟨rfl, rfl⟩
    · obtain ⟨r, b, hstart, hcarries⟩ := h.calls n c' hn
      exact ⟨r, b, hstart.append a, hcarries.append a⟩
    · exact ⟨s, a, ⟨as, List.prefix_rfl, hs, rfl⟩, hc⟩
  records ref v hv := by
    obtain ⟨r, b, u, c', hstart, hcomp, hsame, hat, hstored⟩ := h.records ref v hv
    exact ⟨r, b, u, c', hstart.append a, hcomp.append a, hsame, at_start_of_at hat, hstored⟩
  injOn := h.injOn

/-- What leaves the calls and the database alone. -/
theorem Traced.congr (h : Traced as s origin) (hcalls : t.calls = s.calls) (hdb : t.db = s.db)
    (a : Action) : Traced (as ++ [a]) t origin where
  calls n c hn := by
    obtain ⟨r, b, hstart, hcarries⟩ := h.calls n c (by rwa [At, ← hcalls])
    exact ⟨r, b, hstart.append a, hcarries.append a⟩
  records ref v hv := by
    obtain ⟨r, b, u, c, hstart, hcomp, hsame, hat, hstored⟩ := h.records ref v (hdb ▸ hv)
    exact ⟨r, b, u, c, hstart.append a, hcomp.append a, hsame, by rwa [At, hcalls], hstored⟩
  injOn := hdb ▸ h.injOn

/-- A call that is dropped stores nothing any more. -/
theorem Traced.stop (h : Traced as s origin) :
    Traced (as ++ [.stop i]) { s with calls := s.calls.set i .finished } origin where
  calls n c hn := by
    rcases at_set hn with ⟨rfl, rfl⟩ | ⟨_, hn⟩
    · have hlt : n < s.calls.length := by
        have := (List.getElem?_eq_some_iff.1 hn).1
        rwa [List.length_set] at this
      obtain ⟨r, b, hstart, _⟩ := h.calls n _ (List.getElem?_eq_getElem hlt)
      exact ⟨r, b, hstart.append _, .stored rfl⟩
    · obtain ⟨r, b, hstart, hcarries⟩ := h.calls n c hn
      exact ⟨r, b, hstart.append _, hcarries.append _⟩
  records ref v hv := by
    obtain ⟨r, b, u, c, hstart, hcomp, hsame, hat, hstored⟩ := h.records ref v hv
    by_cases hi : origin ref = i
    · rw [hi] at hat hstart hcomp ⊢
      exact ⟨r, b, u, .finished, hstart.append _, hcomp.append _, hsame, at_set_self hat, rfl⟩
    · exact ⟨r, b, u, c, hstart.append _, hcomp.append _, hsame, at_set_of_ne hi hat, hstored⟩
  injOn := h.injOn

/-- The assignment after an action. -/
def originAfter (s : Repository) (origin : Reference → ℕ) : Action → Reference → ℕ
  | .resume i resp, ref => s.calls[i]?.elim (origin ref) fun c => assign origin i c resp ref
  | _, ref => origin ref

theorem originAfter_resume (hc : s.At i c) :
    s.originAfter origin (.resume i resp) = assign origin i c resp := by
  funext ref
  rw [originAfter, hc, Option.elim_some]

theorem Traced.step (h : Traced as s origin) (hs : machine.exec as = some s)
    (ht : machine.step s a = some t) : Traced (as ++ [a]) t (s.originAfter origin a) := by
  cases a with
  | loginUser d u =>
    have he := Option.some.inj ht
    exact h.congr (by rw [← he]) (by rw [← he]) _
  | logOutUser d =>
    have he := Option.some.inj ht
    exact h.congr (by rw [← he]) (by rw [← he]) _
  | send d message toID =>
    obtain rfl := Option.some.inj ht
    exact h.start hs (s.carries_send _ _ d message toID)
  | uploadMessage d values toID =>
    obtain rfl := Option.some.inj ht
    exact h.start hs (s.carries_uploadMessage _ _ d values toID)
  | markMessagesRead d forUserID =>
    obtain rfl := Option.some.inj ht
    refine h.start hs (.stored ?_)
    cases s.currentUser d <;> rfl
  | resume i resp =>
    cases Step.of_step ht with
    | start hc => cases hc
    | fire hc ho =>
      rw [originAfter_resume hc]
      exact h.fire hs hc ho
  | stop i =>
    cases Step.of_step ht with
    | start hc => cases hc
    | stop => exact h.stop

theorem traced_init : Traced [] machine.init fun _ => 0 where
  calls _ _ hn := absurd hn not_at_init
  records _ _ hv := by simp [machine, Database.message, Database.empty] at hv
  injOn _ href := by simp [machine, Database.message, Database.empty] at href

/-- Every run keeps an assignment. -/
theorem exists_traced (h : machine.exec as = some s) : ∃ origin, Traced as s origin := by
  refine Machine.exec_induction (motive := fun as s => ∃ origin, Traced as s origin) ?_ ?_ h
  · exact ⟨_, traced_init⟩
  · rintro as s a t hs ⟨origin, ih⟩ ht
    exact ⟨_, ih.step hs ht⟩

/-- In every run the records can be assigned different calls: each record says
    what the action that has started its call composes, but for the read flag; that
    of a photo holds the link that has come to the call. -/
theorem exists_origin (h : machine.exec as = some s) :
    ∃ origin : Reference → ℕ, Set.InjOn origin {ref | s.db.message ref ≠ none} ∧
      ∀ ref v, s.db.message ref = some v → ∃ r a u, StartedAt as (origin ref) r a ∧
        r.Composes as (origin ref) a u ∧ SameRecord (.dictionary u.values) v := by
  obtain ⟨origin, htraced⟩ := exists_traced h
  exact ⟨origin, htraced.injOn, fun _ _ => htraced.composes⟩

/-- The record of the first message is that of the only call. -/
theorem origin_firstMessage : ∃ s, machine.exec firstMessage = some s ∧
    ∃ origin : Reference → ℕ, Set.InjOn origin {ref | s.db.message ref ≠ none} ∧
      ∀ ref v, s.db.message ref = some v → ∃ r a u, StartedAt firstMessage (origin ref) r a ∧
        r.Composes firstMessage (origin ref) a u ∧ SameRecord (.dictionary u.values) v :=
  ⟨_, rfl, exists_origin rfl⟩

/-! ## Where nothing fails -/

/-- The action has something to store in the state `r`. -/
inductive Accepts (r : Repository) : Action → Prop
  | send {d : Device} {fromID toID : UserID} {message : Message} {content : Field} :
    r.currentUser d = some fromID → message.type ≠ .photo → message.content = .field content →
    Accepts r (.send d message toID)
  | photo {d : Device} {fromID toID : UserID} {message : Message} :
    r.SendsPhoto d fromID message → Accepts r (.send d message toID)
  | uploadMessage {d : Device} {fromID toID : UserID} {values : Fields} :
    r.currentUser d = some fromID → Accepts r (.uploadMessage d values toID)

theorem Composes.accepts (h : r.Composes as n a u) : r.Accepts a := by
  cases h with
  | send hd htype hcontent => exact .send hd htype hcontent
  | photo hphoto => exact .photo hphoto
  | uploadMessage hd => exact .uploadMessage hd

/-- Nothing fails: the client does not stop, the answers are no failures, and
    somebody is signed in where the link to a photo comes. -/
def Answered (s : Repository) : Action → Prop
  | .stop _ => False
  | .resume _ (.putData ok) => ok
  | .resume i (.downloadURL path) => path.isSome ∧ ∀ d fromID toID timestamp,
    s.At i (.downloadURL d fromID toID timestamp) → s.currentUser d ≠ none
  | .resume _ (.write ok) => ok
  | _ => True

/-- Every call that has something to store is about to store it, or has stored it. -/
def Complete (as : List Action) (s : Repository) (origin : Reference → ℕ) : Prop :=
  ∀ n r a, StartedAt as n r a → r.Accepts a → (∃ c, s.At n c ∧ c.unstored = true) ∨
    ∃ ref, s.db.message ref ≠ none ∧ origin ref = n

/-- The call of an action with something to store is about to store it. -/
theorem unstored_of_accepts (ha : s.Accepts a) (ht : machine.step s a = some t) :
    ∃ c, t.At s.calls.length c ∧ c.unstored = true := by
  cases ha with
  | @send d fromID toID message content hd htype hcontent =>
    obtain rfl := Option.some.inj ht
    refine ⟨_, at_start_self _, ?_⟩
    obtain ⟨type, _, owner, timestamp, isRead⟩ := message
    obtain rfl : _ = Content.field content := hcontent
    rw [hd]
    cases type with
    | photo => exact absurd rfl htype
    | text => rfl
    | location => rfl
  | @photo d fromID toID message hphoto =>
    obtain ⟨hd, htype, image, hcontent, hjpeg⟩ := hphoto
    obtain rfl := Option.some.inj ht
    refine ⟨_, at_start_self _, ?_⟩
    simp only [hd, MagicChat.send, htype, hcontent, hjpeg, if_true]
    rfl
  | uploadMessage hd =>
    obtain rfl := Option.some.inj ht
    refine ⟨_, at_start_self _, ?_⟩
    rw [hd]
    rfl

/-- Where the answer is no failure, the callback of a call that is about to store
    a record goes on, or has stored it. -/
theorem unstored_or_storing (hs : machine.Reachable s) (hc : s.At i c)
    (ho : c.resume s.db s.currentUser resp = some o) (hok : s.Answered (.resume i resp))
    (hopen : c.unstored = true) :
    o.next.unstored = true ∨ (resp = .write true ∧ ∃ u ref, c.storing = some (u, ref)) := by
  cases resumes_of_resume ho with
  | stored => exact .inl rfl
  | notStored => cases hok
  | linked => exact .inl rfl
  | @notLinked d fromID toID timestamp path =>
    -- The link has come, and somebody is signed in.
    obtain ⟨hpath, huser⟩ := hok
    obtain ⟨path, rfl⟩ := Option.isSome_iff_exists.1 hpath
    obtain ⟨u, hu⟩ := Option.ne_none_iff_exists'.1 (huser d fromID toID timestamp hc)
    simp [Call.resume, uploadMessage, hu] at ho
  | located => exact .inl rfl
  | @malformed upload autoID hne =>
    obtain ⟨v, hv⟩ := Option.ne_none_iff_exists'.1 hne
    obtain ⟨L, rfl⟩ := (fresh_of_reachable hs).pointers _ _ v hv
    have hvalid : isValidPathString L := isValidPathString_of_location hs (by
      rw [Database.location, hv]
      rfl)
    simp [Call.resume, hv, hvalid] at ho
  | missing => exact .inl rfl
  | @appended upload ref ok =>
    obtain rfl : ok = true := hok
    exact .inr ⟨rfl, upload, ref, rfl⟩
  | @created upload ref ok =>
    obtain rfl : ok = true := hok
    exact .inr ⟨rfl, upload, ref, rfl⟩
  | _ => cases hopen

theorem exists_outcome (h : machine.step s (.resume i resp) = some t) :
    ∃ c o, s.At i c ∧ c.resume s.db s.currentUser resp = some o ∧ t = s.fire i c resp o := by
  obtain ⟨c, hc, h⟩ := Option.bind_eq_some_iff.1 h
  obtain ⟨o, ho, h⟩ := Option.bind_eq_some_iff.1 h
  split_ifs at h
  exact ⟨c, o, hc, ho, (Option.some.inj h).symm⟩

/-- A call about to store a record is still about to after a step, or has stored it. -/
theorem unstored_step (hs : machine.Reachable s) (hok : s.Answered a)
    (ht : machine.step s a = some t) (hc : s.At n c) (hopen : c.unstored = true) :
    (∃ c', t.At n c' ∧ c'.unstored = true) ∨
      ∃ ref, t.db.message ref ≠ none ∧ s.originAfter origin a ref = n := by
  cases a with
  | resume i resp =>
    obtain ⟨c', o, hc', ho, rfl⟩ := exists_outcome ht
    by_cases hi : n = i
    · subst hi
      obtain rfl : c = c' := Option.some.inj (hc.symm.trans hc')
      rcases unstored_or_storing hs hc ho hok hopen with hnext | ⟨rfl, u, ref, hu⟩
      · exact .inl ⟨o.next, at_set_self hc, hnext⟩
      · refine .inr ⟨ref, ?_, ?_⟩
        · rw [message_of_storing hc hu ht]
          exact Option.some_ne_none _
        · rw [originAfter_resume hc, assign_of_storing hu]
    · exact .inl ⟨c, at_set_of_ne hi hc, hopen⟩
  | stop i => exact hok.elim
  | _ =>
    have hkeep : t.At n c := by
      obtain rfl := Option.some.inj ht
      first | exact hc | exact at_start_of_at hc
    exact .inl ⟨c, hkeep, hopen⟩

/-- A record that is there stays, and keeps its call. -/
theorem originAfter_of_message (hs : machine.exec as = some s) (ht : machine.step s a = some t)
    (href : s.db.message ref ≠ none) :
    t.db.message ref ≠ none ∧ s.originAfter origin a ref = origin ref := by
  constructor
  · obtain ⟨v, hv⟩ := Option.ne_none_iff_exists'.1 href
    rcases message_step hs ht hv with hv' | ⟨hv', _⟩ <;> simp [hv']
  · cases a with
    | resume i resp =>
      obtain ⟨c, o, hc, _, _⟩ := exists_outcome ht
      rw [originAfter_resume hc, (fresh_of_reachable ⟨as, hs⟩).assign_of_message hc href]
    | _ => rfl

theorem Complete.step (h : Complete as s origin) (hs : machine.exec as = some s)
    (hok : s.Answered a) (ht : machine.step s a = some t) :
    Complete (as ++ [a]) t (s.originAfter origin a) := by
  intro n r b hstart hb
  rcases hstart.of_concat hs with hstart | ⟨rfl, rfl, rfl⟩
  · rcases h n r b hstart hb with ⟨c, hc, hopen⟩ | ⟨ref, href, rfl⟩
    · exact unstored_step ⟨as, hs⟩ hok ht hc hopen
    · obtain ⟨href', he⟩ := originAfter_of_message hs ht href
      exact .inr ⟨ref, href', he⟩
  · exact .inl (unstored_of_accepts hb ht)

/-- Every run in which nothing fails keeps a complete assignment. -/
theorem exists_complete (hok : machine.Along Answered as) (h : machine.exec as = some s) :
    ∃ origin, Traced as s origin ∧ Complete as s origin := by
  refine hok.induction (motive := fun as s => ∃ origin, Traced as s origin ∧
    Complete as s origin) ⟨fun _ => 0, traced_init, ?_⟩ ?_ h
  · rintro n r a ⟨p, hp, _⟩
    exact absurd (List.prefix_nil.1 hp) (by simp)
  · rintro as s a t hs ⟨origin, htraced, hcomplete⟩ hok ht
    exact ⟨_, htraced.step hs ht, hcomplete.step hs hok ht⟩

/-- Once the calls have ended, what has something to store has stored it. -/
theorem Complete.exists_message (h : Complete as s origin) (hidle : s.Idle)
    (hstart : StartedAt as n r a) (ha : r.Accepts a) :
    ∃ ref, s.db.message ref ≠ none ∧ origin ref = n := by
  rcases h n r a hstart ha with ⟨c, hc, hopen⟩ | hstored
  · exact absurd (hidle c (List.mem_of_getElem? hc)) (Call.not_ended_of_unstored hopen)
  · exact hstored

/-- In a run in which nothing fails, once all calls have ended, the records are
    those of the actions that had something to store, each stored once. -/
theorem stored_once (hok : machine.Along Answered as) (h : machine.exec as = some s)
    (hidle : s.Idle) : ∃ origin : Reference → ℕ,
      Set.BijOn origin {ref | s.db.message ref ≠ none}
        {n | ∃ r a, StartedAt as n r a ∧ r.Accepts a} ∧
      ∀ ref v, s.db.message ref = some v → ∃ r a u, StartedAt as (origin ref) r a ∧
        r.Composes as (origin ref) a u ∧ SameRecord (.dictionary u.values) v := by
  obtain ⟨origin, htraced, hcomplete⟩ := exists_complete hok h
  refine ⟨origin, ⟨fun ref href => ?_, htraced.injOn, ?_⟩, fun _ _ => htraced.composes⟩
  · obtain ⟨v, hv⟩ := Option.ne_none_iff_exists'.1 href
    obtain ⟨r, a, u, hstart, hcomp, _⟩ := htraced.composes hv
    exact ⟨r, a, hstart, hcomp.accepts⟩
  · rintro n ⟨r, a, hstart, ha⟩
    exact hcomplete.exists_message hidle hstart ha

/-- Nothing fails when the first message is sent. -/
theorem stored_once_firstMessage : ∃ s, machine.exec firstMessage = some s ∧
    s.db.message ⟨"L", "k"⟩ ≠ none ∧ ∃ origin : Reference → ℕ,
      Set.BijOn origin {ref | s.db.message ref ≠ none}
        {n | ∃ r a, StartedAt firstMessage n r a ∧ r.Accepts a} ∧
      ∀ ref v, s.db.message ref = some v → ∃ r a u, StartedAt firstMessage (origin ref) r a ∧
        r.Composes firstMessage (origin ref) a u ∧ SameRecord (.dictionary u.values) v := by
  refine ⟨_, rfl, by decide, stored_once (Machine.along_iff_alongFrom.2 ?_) rfl ?_⟩
  · exact .cons trivial rfl (.cons trivial rfl (.cons trivial rfl (.cons trivial rfl
      (.cons rfl rfl (.cons rfl rfl (.cons rfl rfl trivial))))))
  · intro c hc
    obtain rfl := List.mem_singleton.1 hc
    decide

end Repository

end MagicChat
