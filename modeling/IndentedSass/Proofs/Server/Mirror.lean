/-
  The documents of a session are those of the editor.

  The server hears of a document when it is opened, changed and closed.  Whatever else it is
  told in between, and whatever it reads from the disk, it knows the text that the editor
  shows.

  * `Session.handle` is what the server does with a message; a session is a run of it on the
    messages that get through (`Session.admitted`, `Session.foldl_take`);
  * `Message.follow` is what becomes of the documents, and reading files changes none of
    them (`Session.handle_frame`);
  * `Session.Mirrors` says which documents, switches and indentation there are after some
    messages, and is kept by every message (`Session.Mirrors.handle`);
  * `Session.run_mirrors`: it holds after every run, problems are those of the current text,
    and so are the edits of the formatter.
-/
import Mathlib
import IndentedSass.Proofs.Workspace.Nesting
import IndentedSass.Server.Session

namespace IndentedSass

/-- What an editor sends. -/
inductive Message where
  | request (request : Request)
  | report (report : Report)
  deriving Repr

namespace Message

variable {uri : Uri} {m : Message} {g : Registry}

/-- The registry after the documents follow the editor, before anything is read. -/
def follow (g : Registry) : Message → Registry
  | report (.opened uri text version) => g.openDocument uri text version
  | report (.changed uri changes version) => (g.changeDocument uri changes version).1
  | report (.closed uri) => g.closeDocument uri
  | _ => g

/-- Whether the message opens a document. -/
def opens (uri : Uri) : Message → Bool
  | report (.opened uri' _ _) => uri' = uri
  | _ => false

/-- Whether the message closes a document. -/
def closes (uri : Uri) : Message → Bool
  | report (.closed uri') => uri' = uri
  | _ => false

/-- Whether the message is about a document. -/
def concerns (uri : Uri) : Message → Bool
  | request (.format uri' _) => uri' = uri
  | report (.opened uri' _ _) => uri' = uri
  | report (.changed uri' _ _) => uri' = uri
  | report (.closed uri') => uri' = uri
  | _ => false

/-- The changes of a document that the message brings. -/
def changes (uri : Uri) : Message → List Change
  | report (.changed uri' changes _) => if uri' = uri then changes else []
  | _ => []

/-- The version of a document to which the message changes it. -/
def version? (uri : Uri) : Message → Option Int
  | report (.changed uri' _ version) => if uri' = uri then some version else none
  | _ => none

/-- The switches of the formatter that the message sets. -/
def config? : Message → Option FormatConfig
  | request (.start (some settings)) => (FormatConfig.ofSettings settings).toOption
  | report (.configured settings) => (FormatConfig.ofSettings settings).toOption
  | _ => none

/-- The indentation that the message asks for. -/
def style? : Message → Option IndentStyle
  | request (.format _ style) => some style
  | _ => none

/-- What a message does to a document that stays open. -/
def update (uri : Uri) (m : Message) (d : Document) : Document :=
  ⟨(m.changes uri).foldl Text.applyChange d.text, d.openings, (m.version? uri).getD d.version⟩

theorem eq_of_opens (h : m.opens uri) : ∃ text version, m = report (.opened uri text version) := by
  unfold opens at h
  split at h
  · obtain rfl := of_decide_eq_true h
    exact ⟨_, _, rfl⟩
  · cases h

theorem eq_of_closes (h : m.closes uri) : m = report (.closed uri) := by
  unfold closes at h
  split at h
  · rw [of_decide_eq_true h]
  · cases h

/-! ## The documents after a message -/

theorem update_eq_id (hchanges : m.changes uri = []) (hversion : m.version? uri = none) :
    m.update uri = id :=
  funext fun d => by simp [update, hchanges, hversion]

theorem follow_opened (g : Registry) (uri : Uri) (text : Text) (version : Int) :
    (follow g (report (.opened uri text version))).documents.get? uri =
      some ⟨text, (g.openings.get? uri).getD 0 + 1, version⟩ :=
  Table.get?_insert_self ..

theorem follow_closed (g : Registry) (uri : Uri) :
    (follow g (report (.closed uri))).documents.get? uri = none :=
  Table.get?_erase_self ..

/-- A document that is neither opened nor closed is changed or left alone. -/
theorem follow_other (hopens : m.opens uri = false) (hcloses : m.closes uri = false) :
    (m.follow g).documents.get? uri = (g.documents.get? uri).map (m.update uri) := by
  have hsame : ∀ {m : Message}, m.changes uri = [] → m.version? uri = none →
      (g.documents.get? uri).map (m.update uri) = g.documents.get? uri := by
    intro m hchanges hversion
    rw [update_eq_id hchanges hversion, Option.map_id_fun, id]
  unfold follow
  split
  · rename_i uri' text version
    have hne : uri ≠ uri' := fun h => by simp [opens, h] at hopens
    rw [hsame rfl rfl]
    exact Table.get?_insert_of_ne _ _ hne
  · rename_i uri' changes version
    by_cases huri : uri' = uri
    · subst huri
      cases hget : g.documents.get? uri' with
      | none => simp [Registry.changeDocument, hget]
      | some d =>
        simp [Registry.changeDocument, hget, update, Message.changes, Message.version?]
    · have hchanges : Message.changes uri (report (.changed uri' changes version)) = [] := if_neg huri
      have hversion : Message.version? uri (report (.changed uri' changes version)) = none :=
        if_neg huri
      rw [hsame hchanges hversion]
      unfold Registry.changeDocument
      split
      · exact Table.get?_insert_of_ne _ _ (Ne.symm huri)
      · rfl
  · rename_i uri'
    have hne : uri ≠ uri' := fun h => by simp [closes, h] at hcloses
    rw [hsame rfl rfl]
    exact Table.get?_erase_of_ne _ hne
  · rename_i hopened hchanged hclosed
    refine (hsame ?_ ?_).symm
    · unfold changes
      split
      · exact absurd rfl (hchanged _ _ _)
      · rfl
    · unfold version?
      split
      · exact absurd rfl (hchanged _ _ _)
      · rfl

/-- A message about another document leaves a document alone. -/
theorem follow_of_not_concerns (h : m.concerns uri = false) :
    (m.follow g).documents.get? uri = g.documents.get? uri := by
  obtain ⟨hopens, hcloses, hupdate⟩ :
      m.opens uri = false ∧ m.closes uri = false ∧ m.update uri = id := by
    cases m with
    | request r => exact ⟨rfl, rfl, update_eq_id rfl rfl⟩
    | report r =>
      cases r with
      | initialized | configured => exact ⟨rfl, rfl, update_eq_id rfl rfl⟩
      | opened => exact ⟨h, rfl, update_eq_id rfl rfl⟩
      | closed => exact ⟨rfl, h, update_eq_id rfl rfl⟩
      | changed =>
        exact ⟨rfl, rfl, update_eq_id (if_neg (of_decide_eq_false h))
          (if_neg (of_decide_eq_false h))⟩
  rw [follow_other hopens hcloses, hupdate, Option.map_id_fun, id]

/-- How often a document was opened is counted, whatever else happens to it. -/
theorem follow_openings (g : Registry) (m : Message) (uri : Uri) :
    ((m.follow g).openings.get? uri).getD 0 =
      (g.openings.get? uri).getD 0 + (if m.opens uri then 1 else 0) := by
  unfold follow
  split
  · rename_i uri' text version
    by_cases huri : uri' = uri
    · simp [Registry.openDocument, opens, huri]
    · simp [Registry.openDocument, opens, huri, Table.get?_insert_of_ne _ _ (Ne.symm huri)]
  · unfold Registry.changeDocument
    split <;> rfl
  · rfl
  · rename_i hopened _ _
    unfold opens
    split
    · exact absurd rfl (hopened _ _ _)
    · rfl

end Message

/-! ## Messages to the server -/

/-- What the server says to a message. -/
structure Response where
  /-- What it tells on its own, in order. -/
  notices : List Notice
  /-- The answer, when the message is a request that has one. -/
  answer? : Option Answer
  deriving Repr

namespace Session

variable {s : Session} {disk : Disk} {m : Message} {uri : Uri}

/-- What the server does with a message that gets through to it. -/
def handle (s : Session) (disk : Disk) : Message → Session × Response
  | .request (.start settings) =>
    ({ (settings.map s.configure).getD s with phase := .running }, ⟨[], some .started⟩)
  | .request request =>
    let (s, answer) := s.answerRunning request
    (s, ⟨[], answer.toOption⟩)
  | .report report =>
    let (s, notices) := s.observeRunning disk report
    (s, ⟨notices, none⟩)

/-- Whether a message gets through: the one that starts the session as the first, all others
    between start and end. -/
def admits (s : Session) : Message → Bool
  | .request (.start _) => s.phase = .fresh
  | _ => s.phase = .running

theorem answer_of_admits {r : Request} (h : s.admits (.request r)) (disk : Disk) :
    s.handle disk (.request r) = ((s.answer r).1, ⟨[], (s.answer r).2.toOption⟩) := by
  cases r with
  | start settings =>
    have hphase : s.phase = .fresh := of_decide_eq_true h
    simp only [answer, hphase]
    rfl
  | format | shutdown =>
    have hphase : s.phase = .running := of_decide_eq_true h
    simp only [answer, hphase]
    rfl

theorem answer_of_not_admits {r : Request} (h : ¬s.admits (.request r)) : (s.answer r).1 = s := by
  cases r with
  | start | format | shutdown =>
    unfold answer
    cases hphase : s.phase <;> first | rfl | exact absurd (decide_eq_true hphase) h

theorem observe_of_admits {r : Report} (h : s.admits (.report r)) (disk : Disk) :
    s.handle disk (.report r) = ((s.observe disk r).1, ⟨(s.observe disk r).2, none⟩) := by
  have hphase : s.phase = .running := of_decide_eq_true h
  rw [observe, if_pos hphase]
  rfl

theorem observe_of_not_admits {r : Report} (h : ¬s.admits (.report r)) (disk : Disk) :
    s.observe disk r = (s, []) :=
  if_neg fun hphase => h (decide_eq_true hphase)

/-- The session after a message, whether or not it gets through. -/
def take (s : Session) : Disk × Message → Session
  | (_, .request r) => (s.answer r).1
  | (disk, .report r) => (s.observe disk r).1

/-- The session after messages that get through, each with the disk as it is at that time. -/
def run (s : Session) (history : List (Disk × Message)) : Session :=
  history.foldl (fun s (disk, m) => (s.handle disk m).1) s

/-- The messages that get through, one after the other. -/
def admitted (s : Session) : List (Disk × Message) → List (Disk × Message)
  | [] => []
  | (disk, m) :: history =>
    if s.admits m then (disk, m) :: admitted (s.handle disk m).1 history else admitted s history

theorem take_of_admits (h : s.admits m) (disk : Disk) :
    s.take (disk, m) = (s.handle disk m).1 := by
  cases m with
  | request r => rw [answer_of_admits h, take]
  | report r => rw [observe_of_admits h, take]

theorem take_of_not_admits (h : ¬s.admits m) (disk : Disk) : s.take (disk, m) = s := by
  cases m with
  | request r => exact answer_of_not_admits h
  | report r => exact congrArg Prod.fst (observe_of_not_admits h disk)

/-- A session is a run on the messages that get through. -/
theorem foldl_take (s : Session) (history : List (Disk × Message)) :
    history.foldl take s = s.run (s.admitted history) := by
  induction history generalizing s with
  | nil => rfl
  | cons e history ih =>
    obtain ⟨disk, m⟩ := e
    rw [List.foldl_cons, ih, admitted]
    by_cases hm : s.admits m
    · rw [take_of_admits hm, if_pos hm]
      rfl
    · rw [take_of_not_admits hm, if_neg hm]

/-! ## What a message changes -/

/-- Reading a document changes nothing but the files that were read. -/
theorem reload_frame {α : Type} {f : Registry → α} (hf : ∀ g files, f { g with files } = f g)
    (g : Registry) (disk : Disk) (style : IndentStyle) (uri : Uri) :
    f (g.reload disk style uri).registry = f g :=
  (Registry.loadInChain_frame hf _ _ _ _).trans (hf g _)

/-- Settings that are not well formed leave the switches as they are. -/
theorem configure_eq (s : Session) (settings : Json) :
    s.configure settings =
      { s with config := (FormatConfig.ofSettings settings).toOption.getD s.config } := by
  unfold configure
  cases FormatConfig.ofSettings settings <;> rfl

/-- The documents follow the editor, whatever is read. -/
theorem handle_frame {α : Type} {f : Registry → α} (hf : ∀ g files, f { g with files } = f g)
    (s : Session) (disk : Disk) (m : Message) :
    f (s.handle disk m).1.registry = f (m.follow s.registry) := by
  cases m with
  | request r =>
    cases r with
    | start settings =>
      cases settings with
      | none => rfl
      | some settings => exact congrArg (fun s => f s.registry) (configure_eq s settings)
    | format | shutdown => rfl
  | report r =>
    cases r with
    | initialized | closed => rfl
    | opened | changed => exact reload_frame hf ..
    | configured settings => exact congrArg (fun s => f s.registry) (configure_eq s settings)

/-- The switches and the indentation are set by the messages that bring them. -/
theorem handle_settings (s : Session) (disk : Disk) (m : Message) :
    (s.handle disk m).1.config = m.config?.getD s.config ∧
      (s.handle disk m).1.style = m.style?.getD s.style := by
  cases m with
  | request r =>
    cases r with
    | start settings =>
      cases settings with
      | none => exact ⟨rfl, rfl⟩
      | some settings =>
        exact ⟨congrArg config (configure_eq s settings),
          (congrArg Session.style (configure_eq s settings)).trans rfl⟩
    | format | shutdown => exact ⟨rfl, rfl⟩
  | report r =>
    cases r with
    | initialized | closed | opened | changed => exact ⟨rfl, rfl⟩
    | configured settings =>
      exact ⟨congrArg config (configure_eq s settings),
        (congrArg Session.style (configure_eq s settings)).trans rfl⟩

/-- An open document is read from its text, and its problems are published with its version. -/
theorem publish_of_open {d : Document} (hopen : s.registry.documents.get? uri = some d) :
    let g := s.registry.forget uri
    (s.publish disk uri).2 = [.problems uri (some d.version)
      (readFile ((g.call uri).resolver disk) g uri s.style d.text).entry.diagnostics] := by
  intro g
  have hread : g.readText disk uri = .ok d.text := by
    have htext : g.documentText? uri = some d.text := congrArg (Option.map _) hopen
    rw [Registry.readText, htext]
  have hstored : g.stored? uri d.text s.style = none := by
    have hfile : g.files.get? uri = none := Table.get?_erase_self ..
    rw [Registry.stored?, hfile]
  have hbound : g.chainBound ≠ 0 := Nat.succ_ne_zero _
  have htext : (g.call uri).text? disk s.style = some d.text := by
    simp only [Registry.Call.text?, Registry.call, hbound, List.not_mem_nil, or_self, if_false,
      hread, hstored, Option.isSome_none, Bool.false_eq_true]
  have hload := Registry.Call.loading_of_text htext
  have hresult : (s.registry.reload disk s.style uri).result = .ok
      (readFile ((g.call uri).resolver disk) g uri s.style d.text).entry :=
    congrArg Loading.result hload
  rw [publish, hopen, hresult]
  rfl

/-! ## Runs -/

/-- The document was opened and not closed since then. -/
def Opened (uri : Uri) (messages : List Message) : Prop :=
  ∃ before text version after,
    messages = before ++ .report (.opened uri text version) :: after ∧
      ∀ m ∈ after, m.closes uri = false

/-- The documents are those of the editor after these messages, and so are the switches and
    the indentation. -/
structure Mirrors (messages : List Message) (s : Session) : Prop where
  isOpen : ∀ uri, (s.registry.documents.get? uri).isSome ↔ Opened uri messages
  /-- Its text is the one with which it was opened last, with all later changes, and its
      version that of the last of them. -/
  document : ∀ uri before text version after,
    messages = before ++ .report (.opened uri text version) :: after →
    (∀ m ∈ after, m.opens uri = false ∧ m.closes uri = false) →
    s.registry.documents.get? uri = some
      { text := (after.flatMap (Message.changes uri)).foldl Text.applyChange text
        openings := messages.countP (Message.opens uri)
        version := ((after.filterMap (Message.version? uri)).getLast?).getD version }
  openings : ∀ uri, (s.registry.openings.get? uri).getD 0 = messages.countP (Message.opens uri)
  /-- The switches are the last ones that were well formed. -/
  config : s.config = ((messages.filterMap Message.config?).getLast?).getD {}
  /-- The indentation is that of the last request to format a document. -/
  style : s.style = ((messages.filterMap Message.style?).getLast?).getD {}

theorem opened_concat (uri : Uri) (messages : List Message) (m : Message) :
    Opened uri (messages ++ [m]) ↔
      m.opens uri = true ∨ m.closes uri = false ∧ Opened uri messages := by
  constructor
  · rintro ⟨before, text, version, after, heq, hafter⟩
    rcases List.eq_nil_or_concat after with rfl | ⟨after, m', rfl⟩
    · obtain ⟨-, hm⟩ := List.append_inj' heq rfl
      obtain rfl := List.singleton_inj.1 hm
      exact .inl (decide_eq_true rfl)
    · rw [List.concat_eq_append, ← List.cons_append, ← List.append_assoc] at heq
      obtain ⟨hmessages, hm⟩ := List.append_inj' heq rfl
      obtain rfl := List.singleton_inj.1 hm
      rw [List.concat_eq_append] at hafter
      exact .inr ⟨hafter m (by simp), before, text, version, after, hmessages,
        fun m hm => hafter m (List.mem_append_left _ hm)⟩
  · rintro (hopens | ⟨hcloses, before, text, version, after, rfl, hafter⟩)
    · obtain ⟨text, version, rfl⟩ := Message.eq_of_opens hopens
      exact ⟨messages, text, version, [], rfl, nofun⟩
    · refine ⟨before, text, version, after ++ [m], by simp, fun m' hm => ?_⟩
      rcases List.mem_append.1 hm with hm | hm
      · exact hafter m' hm
      · rwa [List.mem_singleton.1 hm]

theorem mirrors_nil : Mirrors [] {} where
  isOpen := fun uri => ⟨nofun, fun ⟨before, text, version, after, h, _⟩ => by simp at h⟩
  document := fun uri before text version after h => by simp at h
  openings := fun uri => rfl
  config := rfl
  style := rfl

/-- The last value that some messages set, after one more. -/
theorem getLast?_filterMap_concat {α : Type} (f : Message → Option α) (messages : List Message)
    (m : Message) (default : α) :
    (((messages ++ [m]).filterMap f).getLast?).getD default =
      (f m).getD (((messages.filterMap f).getLast?).getD default) := by
  rw [List.filterMap_append]
  cases hm : f m with
  | none => simp [hm]
  | some value => simp [hm]

/-- Every message is followed. -/
theorem Mirrors.handle {messages : List Message} (h : Mirrors messages s) (disk : Disk)
    (m : Message) : Mirrors (messages ++ [m]) (s.handle disk m).1 := by
  have hdocuments := handle_frame (f := Registry.documents) (fun _ _ => rfl) s disk m
  have hopenings := handle_frame (f := Registry.openings) (fun _ _ => rfl) s disk m
  obtain ⟨hconfig, hstyle⟩ := handle_settings s disk m
  refine ⟨fun uri => ?_, fun uri before text version after heq hafter => ?_, fun uri => ?_, ?_, ?_⟩
  · rw [hdocuments, opened_concat, ← h.isOpen]
    by_cases hopens : m.opens uri
    · obtain ⟨text, version, rfl⟩ := Message.eq_of_opens hopens
      rw [Message.follow_opened]
      exact iff_of_true rfl (.inl hopens)
    · by_cases hcloses : m.closes uri
      · obtain rfl := Message.eq_of_closes hcloses
        rw [Message.follow_closed]
        simp [hcloses, Message.opens]
      · rw [Bool.not_eq_true] at hopens hcloses
        rw [Message.follow_other hopens hcloses]
        simp [hopens, hcloses]
  · rw [hdocuments]
    rcases List.eq_nil_or_concat after with rfl | ⟨after, m', rfl⟩
    · obtain ⟨rfl, hm⟩ := List.append_inj' heq rfl
      obtain rfl := List.singleton_inj.1 hm
      rw [Message.follow_opened, h.openings]
      simp [List.countP_append, Message.opens]
    · rw [List.concat_eq_append, ← List.cons_append, ← List.append_assoc] at heq
      obtain ⟨rfl, hm⟩ := List.append_inj' heq rfl
      obtain rfl := List.singleton_inj.1 hm
      simp only [List.concat_eq_append, List.mem_append, List.mem_singleton] at hafter
      obtain ⟨hopens, hcloses⟩ := hafter m (.inr rfl)
      rw [Message.follow_other hopens hcloses,
        h.document uri before text version after rfl fun m hm => hafter m (.inl hm),
        List.concat_eq_append, getLast?_filterMap_concat]
      simp [Message.update, List.countP_append, List.countP_cons, hopens]
  · rw [hopenings, Message.follow_openings, h.openings, List.countP_append]
    simp
  · rw [hconfig, h.config, getLast?_filterMap_concat]
  · rw [hstyle, h.style, getLast?_filterMap_concat]

theorem mirrors_run (history : List (Disk × Message)) :
    Mirrors (history.map Prod.snd) (run {} history) := by
  induction history using List.reverseRecOn with
  | nil => exact mirrors_nil
  | append_singleton history e ih =>
    rw [List.map_append, run, List.foldl_append]
    exact ih.handle e.1 e.2

/-! ## What is sent -/

/-- Only the problems of the document itself are published. -/
theorem uri_of_mem_publish {uri' : Uri} {version : Option Int} {problems : List Diagnostic}
    (h : .problems uri version problems ∈ (s.publish disk uri').2) : uri = uri' := by
  unfold publish at h
  dsimp only at h
  split at h
  · cases List.mem_singleton.1 h
    rfl
  · cases h

/-- What is published of an open document are the problems of its text. -/
theorem problems_of_open {version : Option Int} {problems : List Diagnostic} {d : Document}
    (h : .problems uri version problems ∈ (s.handle disk m).2.notices)
    (hopen : (m.follow s.registry).documents.get? uri = some d) :
    let g := (m.follow s.registry).forget uri
    version = some d.version ∧
      problems = (readFile ((g.call uri).resolver disk) g uri s.style d.text).entry.diagnostics := by
  have hpublish : .problems uri version problems ∈
        ({ s with registry := m.follow s.registry }.publish disk uri).2 := by
    cases m with
    | request r => cases r <;> cases h
    | report r =>
      cases r with
      | initialized => cases List.mem_singleton.1 h
      | configured => cases h
      | closed uri' =>
        cases List.mem_singleton.1 h
        rw [Message.follow_closed] at hopen
        cases hopen
      | opened | changed =>
        obtain rfl := uri_of_mem_publish h
        exact h
  rw [publish_of_open hopen] at hpublish
  cases List.mem_singleton.1 hpublish
  exact ⟨rfl, rfl⟩

/-- A report about an open document is followed by the problems of its text. -/
theorem notices_of_open {r : Report} {d : Document} (h : (Message.report r).concerns uri)
    (hopen : ((Message.report r).follow s.registry).documents.get? uri = some d) :
    let g := ((Message.report r).follow s.registry).forget uri
    (s.handle disk (.report r)).2.notices = [.problems uri (some d.version)
      (readFile ((g.call uri).resolver disk) g uri s.style d.text).entry.diagnostics] := by
  cases r with
  | initialized | configured => cases h
  | closed =>
    obtain rfl := of_decide_eq_true h
    rw [Message.follow_closed] at hopen
    cases hopen
  | opened | changed =>
    obtain rfl := of_decide_eq_true h
    exact publish_of_open hopen

/-- After every run the documents are those of the editor, and so is what the server says of
    them:

    * a message about another document, or a change of one that is not open, leaves a document
      as it is;
    * the problems that are published of an open document are those of its text, read with the
      indentation of the last request to format a document, and they are published whenever it
      is opened or changed;
    * a request to format a document is answered with the edits of its text.

    A session to which messages come in any order is such a run. -/
theorem run_mirrors (history : List (Disk × Message)) :
    let s := run {} history
    Mirrors (history.map Prod.snd) s ∧
      history.foldl take {} = run {} (admitted {} history) ∧
      ∀ (disk : Disk) (m : Message) (uri : Uri),
        let s' := (s.handle disk m).1
        let response := (s.handle disk m).2
        (m.concerns uri = false →
          s'.registry.documents.get? uri = s.registry.documents.get? uri) ∧
        (∀ changes version, m = .report (.changed uri changes version) →
          s.registry.documents.get? uri = none →
          s'.registry.documents = s.registry.documents ∧
            s'.registry.openings = s.registry.openings) ∧
        (∀ d, s'.registry.documents.get? uri = some d →
          let g := (m.follow s.registry).forget uri
          let problems :=
            (readFile ((g.call uri).resolver disk) g uri s'.style d.text).entry.diagnostics
          (∀ version published, .problems uri version published ∈ response.notices →
            version = some d.version ∧ published = problems) ∧
          ∀ r, m = .report r → m.concerns uri →
            response.notices = [.problems uri (some d.version) problems]) ∧
        ∀ style, m = .request (.format uri style) → response.answer? =
          some (.edits ((s.registry.documents.get? uri).map fun d =>
            formatEdits s.config style d.text)) := by
  intro s
  refine ⟨mirrors_run history, foldl_take {} history, fun disk m uri => ?_⟩
  have hdocuments := handle_frame (f := Registry.documents) (fun _ _ => rfl) s disk m
  refine ⟨fun hm => ?_, ?_, fun d hopen => ⟨fun version published hmem => ?_, ?_⟩, ?_⟩
  · rw [hdocuments, Message.follow_of_not_concerns hm]
  · rintro changes version rfl hclosed
    have hfollow : (Message.report (.changed uri changes version)).follow s.registry =
        s.registry := by
      simp only [Message.follow, Registry.changeDocument, hclosed]
    rw [hdocuments, handle_frame (f := Registry.openings) (fun _ _ => rfl), hfollow]
    exact ⟨rfl, rfl⟩
  · rw [hdocuments] at hopen
    obtain ⟨hversion, hproblems⟩ := problems_of_open hmem hopen
    -- a request publishes nothing, and no report changes the indentation
    have hstyle : (s.handle disk m).1.style = s.style := by
      rw [(handle_settings s disk m).2]
      cases m with
      | request r => cases r <;> cases hmem
      | report r => rfl
    rw [hstyle]
    exact ⟨hversion, hproblems⟩
  · rintro r rfl hconcerns
    rw [hdocuments] at hopen
    rw [(handle_settings s disk (.report r)).2]
    exact notices_of_open hconcerns hopen
  · rintro style rfl
    simp only [handle, answerRunning, Registry.documentText?, Option.map_map]
    rfl

/-- A document that was opened twice and then changed. -/
theorem run_mirrors_reopened :
    let uri : Uri := .ofPath (.ofBytes (FileName.ofString "/a.sass"))
    let history : List (Disk × Message) :=
      [({}, .report (.opened uri "a".toList 1)), ({}, .report (.closed uri)),
        ({}, .report (.opened uri "b".toList 4)), ({}, .request (.format uri ⟨4, true⟩)),
        ({}, .report (.changed uri [⟨none, "c".toList⟩, ⟨some ⟨⟨0, 1⟩, ⟨0, 1⟩⟩, "d".toList⟩] 5))]
    (run {} history).registry.documents.get? uri = some ⟨"cd".toList, 2, 5⟩ := by
  intro uri history
  have hdocument := (run_mirrors history).1.document uri
    [.report (.opened uri "a".toList 1), .report (.closed uri)] "b".toList 4
    [.request (.format uri ⟨4, true⟩),
      .report (.changed uri [⟨none, "c".toList⟩, ⟨some ⟨⟨0, 1⟩, ⟨0, 1⟩⟩, "d".toList⟩] 5)]
    rfl (by decide +kernel)
  rw [hdocument]
  decide +kernel

end Session

end IndentedSass
