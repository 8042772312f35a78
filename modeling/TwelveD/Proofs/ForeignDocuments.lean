import TwelveD.Proofs.Documents
import TwelveD.Proofs.Independence

/-!
# Documents in other languages

A document that is opened in another language than that of the session is left alone, and requests
about it get empty answers. A change does not say in which language the document is, though: like a
document that was never opened, one that was left alone is in the store from its first change on.
-/

namespace TwelveD

namespace Message

variable {languageId uri : String} {m : Message}

/-! ## Openings and changes -/

/-- The name and the parameters of a message; there is no difference between a notification and a
    request here. -/
def content? : Message → Option (String × Json)
  | .request _ method params => some (method, params)
  | .notification method params => some (method, params)
  | .response _ => none

/-- The document that a message announces as opened. -/
def opened? (m : Message) : Option Params.Opened :=
  m.content?.bind fun c => if c.1 = "textDocument/didOpen" then Params.opened? c.2 else none

/-- The document that a message announces as changed. -/
def changed? (m : Message) : Option Params.Changed :=
  m.content?.bind fun c => if c.1 = "textDocument/didChange" then Params.changed? c.2 else none

/-- What a message makes of the document `uri` by changing it. -/
def change? (uri : String) (m : Message) : Option Document :=
  m.changed?.bind fun d =>
    if d.uri = uri then d.texts.getLast?.map fun text => ⟨text, d.version⟩ else none

theorem write?_eq (languageId : String) (m : Message) :
    m.write? languageId = m.content?.bind fun c => writeOf? languageId c.1 c.2 := by
  cases m <;> rfl

/-- Of a document that a message does not open in the language of the session, the message writes what
    it changes. -/
theorem write?_of_foreign (h : ∀ d ∈ m.opened?, d.uri = uri → d.languageId ≠ languageId) :
    ((m.write? languageId).filter fun w => w.1 == uri).map Prod.snd = m.change? uri := by
  rw [write?_eq]
  unfold change? changed?
  unfold opened? at h
  cases hc : m.content? with
  | none => rfl
  | some c =>
    obtain ⟨method, params⟩ := c
    simp only [hc, Option.bind_some] at h ⊢
    unfold writeOf?
    by_cases hopen : method = "textDocument/didOpen"
    · subst hopen
      simp only [if_true] at h ⊢
      cases hd : Params.opened? params with
      | none => rfl
      | some d =>
        by_cases hlanguage : d.languageId = languageId
        · have huri : d.uri ≠ uri := fun huri => h d hd huri hlanguage
          simp [hlanguage, huri]
        · simp [hlanguage]
    · by_cases hchange : method = "textDocument/didChange"
      · subst hchange
        simp only [hopen, if_false, if_true]
        cases hd : Params.changed? params with
        | none => rfl
        | some d =>
          simp only [Option.bind_some]
          by_cases huri : d.uri = uri
          · cases d.texts.getLast? <;> simp [huri, Option.filter_some]
          · cases d.texts.getLast? <;> simp [huri, Option.filter_some]
      · simp [hopen, hchange]

end Message

namespace Server

variable {parse : Parser} {s : Server} {uri : String}

/-! ## Steps and runs -/

theorem get?_handle_of_foreign {m : Message}
    (h : ∀ d ∈ m.opened?, d.uri = uri → d.languageId ≠ s.config.languageId) :
    (s.handle parse m).1.store.get? uri = (m.change? uri).or (s.store.get? uri) := by
  rw [get?_handle, ← Message.write?_of_foreign h]
  cases m.write? s.config.languageId with
  | none => rfl
  | some w =>
    by_cases huri : w.1 = uri
    · simp [huri, Option.filter_some]
    · simp [huri, Ne.symm huri, Option.filter_some]

theorem get?_run_of_foreign {messages : List Message}
    (h : ∀ m ∈ messages, ∀ d ∈ m.opened?, d.uri = uri → d.languageId ≠ s.config.languageId) :
    (s.run parse messages).store.get? uri =
      (messages.filterMap (Message.change? uri)).getLast?.or (s.store.get? uri) := by
  induction messages using List.reverseRecOn with
  | nil => rfl
  | append_singleton messages m ih =>
    have hbefore : ∀ m ∈ messages, ∀ d ∈ m.opened?, d.uri = uri →
        d.languageId ≠ s.config.languageId :=
      fun n hn => h n (List.mem_append_left _ hn)
    have hlast : ∀ d ∈ m.opened?, d.uri = uri →
        d.languageId ≠ (s.run parse messages).config.languageId := by
      rw [config_run]
      exact h m (by simp)
    rw [run_concat, get?_handle_of_foreign hlast, ih hbefore, List.filterMap_append]
    cases hchange : m.change? uri with
    | none => simp [hchange]
    | some d => simp [hchange]

/-! ## Empty answers -/

/-- The session knows nothing of a document: requests about it get empty answers. -/
def KnowsNothingOf (s : Server) (parse : Parser) (uri : String) : Prop :=
  ∀ (id : RequestId) (params : Json),
    (∀ place ∈ Params.definition? params, place.uri = uri →
      (s.handle parse (.request id "textDocument/definition" params)).2 = some ⟨id, .ok .null⟩) ∧
    (∀ place ∈ Params.hover? params, place.uri = uri →
      (s.handle parse (.request id "textDocument/hover" params)).2 = some ⟨id, .ok .null⟩) ∧
    (∀ place ∈ Params.completion? params, place.uri = uri →
      (s.handle parse (.request id "textDocument/completion" params)).2 = some ⟨id, .ok .null⟩) ∧
    (∀ name ∈ Params.formatting? params, name = uri →
      (s.handle parse (.request id "textDocument/formatting" params)).2 =
        some ⟨id, .ok (.array [])⟩)

theorem snd_handle_request {method : String} (known : Method) (hsilent : method ∉ Method.silentNames)
    (hknown : (method, known) ∈ Method.known) {id : RequestId} {params : Json} {v : Json}
    (h : s.answer parse known params = .ok v) :
    (s.handle parse (.request id method params)).2 = some ⟨id, .ok v⟩ := by
  have hname : Method.ofName method = known := (Method.ofName_eq_iff method hknown).mpr rfl
  rw [handle_request hsilent, hname, h]

theorem knowsNothingOf_of_get? (h : s.store.get? uri = none) : s.KnowsNothingOf parse uri := by
  have htree : s.tree? parse uri = none := by rw [tree?_eq, text?, h]; rfl
  intro id params
  refine ⟨?_, ?_, ?_, ?_⟩
  · rintro place hplace rfl
    apply snd_handle_request .definition (by decide) (by decide)
    refine (read_bind_of_some hplace _).trans ?_
    rw [htree]
    rfl
  · rintro place hplace rfl
    apply snd_handle_request .hover (by decide) (by decide)
    refine (read_bind_of_some hplace _).trans ?_
    rw [htree]
    rfl
  · rintro place hplace rfl
    apply snd_handle_request .completion (by decide) (by decide)
    refine (read_bind_of_some hplace _).trans ?_
    rw [completions?, htree]
    rfl
  · rintro name hname rfl
    apply snd_handle_request .formatting (by decide) (by decide)
    refine (read_bind_of_some hname _).trans ?_
    rw [htree]
    rfl

/-- A document is not in the store, and from here on it is only opened in other languages. Then the
    store holds what the last change has made of it and nothing if there was no change, and as long as
    there was none, all requests about it get empty answers. -/
theorem foreign_document_tracked_once_changed (parse : Parser) (s : Server) (uri : String)
    (hnone : s.store.get? uri = none) (messages : List Message)
    (hforeign : ∀ m ∈ messages, ∀ d ∈ m.opened?, d.uri = uri →
      d.languageId ≠ s.config.languageId) :
    (s.run parse messages).store.get? uri = (messages.filterMap (Message.change? uri)).getLast? ∧
    ((s.run parse messages).store.get? uri = none ↔ ∀ m ∈ messages, m.change? uri = none) ∧
    ((∀ m ∈ messages, m.change? uri = none) → (s.run parse messages).KnowsNothingOf parse uri) := by
  have hget : (s.run parse messages).store.get? uri =
      (messages.filterMap (Message.change? uri)).getLast? := by
    rw [get?_run_of_foreign hforeign, hnone, Option.or_none]
  have hiff : (s.run parse messages).store.get? uri = none ↔
      ∀ m ∈ messages, m.change? uri = none := by
    rw [hget, List.getLast?_eq_none_iff, List.filterMap_eq_nil_iff]
  exact ⟨hget, hiff, fun h => knowsNothingOf_of_get? (hiff.mpr h)⟩

/-- A document is opened in another language. -/
def openedForeign : Message :=
  .notification "textDocument/didOpen" (.object [("textDocument", .object
    [("uri", .string "file:///a.c"), ("languageId", .string "c"), ("version", .ofInt 1),
      ("text", .string "int x;")])])

/-- That document is changed. -/
def changedForeign : Message :=
  .notification "textDocument/didChange" (.object [("textDocument", .object
    [("uri", .string "file:///a.c"), ("version", .ofInt 2)]),
    ("contentChanges", .array [.object [("text", .string "int y;")]])])

theorem opened?_openedForeign :
    openedForeign.opened? = some ⟨"file:///a.c", "c", 1, "int x;"⟩ := by
  with_unfolding_all rfl

theorem opened?_changedForeign : changedForeign.opened? = none := by
  with_unfolding_all rfl

theorem change?_openedForeign : openedForeign.change? "file:///a.c" = none := by
  with_unfolding_all rfl

theorem change?_changedForeign :
    changedForeign.change? "file:///a.c" = some ⟨"int y;", 2⟩ := by
  with_unfolding_all rfl

theorem languageId_openedForeign : ∀ m ∈ [openedForeign, changedForeign], ∀ d ∈ m.opened?,
    d.uri = "file:///a.c" → d.languageId ≠ (start .default).config.languageId := by
  intro m hm d hd _
  rcases List.mem_pair.mp hm with rfl | rfl
  · obtain rfl := Option.some.inj (opened?_openedForeign.symm.trans hd)
    decide
  · rw [opened?_changedForeign] at hd
    cases hd

theorem foreign_document_tracked_once_changed_openedForeign :
    (start .default).store.get? "file:///a.c" = none ∧
      ((start .default).run (fun _ => none) [openedForeign]).KnowsNothingOf (fun _ => none)
        "file:///a.c" ∧
      ((start .default).run (fun _ => none) [openedForeign, changedForeign]).store.get?
        "file:///a.c" = some ⟨"int y;", 2⟩ := by
  have hforeign := languageId_openedForeign
  obtain ⟨-, -, hnothing⟩ := foreign_document_tracked_once_changed (fun _ => none) (start .default)
    "file:///a.c" rfl [openedForeign] (fun m hm => hforeign m (by simp [List.mem_singleton.mp hm]))
  obtain ⟨hget, -, -⟩ := foreign_document_tracked_once_changed (fun _ => none) (start .default)
    "file:///a.c" rfl [openedForeign, changedForeign] hforeign
  refine ⟨rfl, hnothing ?_, ?_⟩
  · intro m hm
    rw [List.mem_singleton.mp hm]
    exact change?_openedForeign
  · rw [hget, List.filterMap_cons_none change?_openedForeign,
      List.filterMap_cons_some change?_changedForeign]
    rfl

/-- The language of a document does not keep it out of the store for good: every opening is in another
    language, and yet the document is there in the end. -/
theorem foreign_document_tracked_after_change :
    (start .default).store.get? "file:///a.c" = none ∧
      (∀ m ∈ [openedForeign, changedForeign], ∀ d ∈ m.opened?, d.uri = "file:///a.c" →
        d.languageId ≠ (start .default).config.languageId) ∧
      ((start .default).run (fun _ => none) [openedForeign, changedForeign]).store.get?
        "file:///a.c" ≠ none := by
  refine ⟨rfl, languageId_openedForeign, ?_⟩
  rw [get?_run_of_foreign languageId_openedForeign,
    List.filterMap_cons_none change?_openedForeign,
    List.filterMap_cons_some change?_changedForeign]
  simp

end Server

end TwelveD
