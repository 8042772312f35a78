import TwelveD.Proofs.Sessions

/-!
# The documents of a session

The store of a session holds under every name what was last written there, and a write to one name
leaves all others alone.
-/

namespace TwelveD

/-! ## The last write -/

namespace Message

/-- The last document that messages write under a name. -/
def lastWrite? (languageId : String) (messages : List Message) (uri : String) : Option Document :=
  (((messages.filterMap (write? languageId)).filter fun w => w.1 == uri).getLast?).map Prod.snd

/-- A last message that writes under a name is the last write there; other messages are none. -/
theorem lastWrite?_concat (languageId : String) (messages : List Message) (m : Message)
    (uri : String) : lastWrite? languageId (messages ++ [m]) uri =
      match write? languageId m with
      | some w => if uri = w.1 then some w.2 else lastWrite? languageId messages uri
      | none => lastWrite? languageId messages uri := by
  unfold lastWrite?
  rw [List.filterMap_append, List.filter_append]
  cases hw : write? languageId m with
  | none => simp [hw]
  | some w =>
    by_cases huri : uri = w.1
    · simp [hw, huri]
    · simp [hw, huri, Ne.symm huri]

end Message

namespace Server

variable {parse : Parser} {s : Server}

/-! ## Steps -/

/-- What a name leads to after a message. -/
theorem get?_handle (m : Message) (uri : String) : (s.handle parse m).1.store.get? uri =
    match m.write? s.config.languageId with
    | some w => if uri = w.1 then some w.2 else s.store.get? uri
    | none => s.store.get? uri := by
  rw [handle_fst]
  cases m.write? s.config.languageId with
  | none => rfl
  | some w => exact Store.get?_put s.store w.1 uri w.2

theorem isSome_get?_handle {uri : String} (h : (s.store.get? uri).isSome) (m : Message) :
    ((s.handle parse m).1.store.get? uri).isSome := by
  rw [get?_handle]
  split
  · split
    · rfl
    · exact h
  · exact h

/-! ## Runs -/

theorem run_concat (messages : List Message) (m : Message) :
    s.run parse (messages ++ [m]) = ((s.run parse messages).handle parse m).1 := by
  rw [run, List.foldl_append]
  rfl

theorem config_run (messages : List Message) : (s.run parse messages).config = s.config := by
  induction messages using List.reverseRecOn with
  | nil => rfl
  | append_singleton messages m ih => rw [run_concat, handle_fst, ih]

/-- After any messages a name leads to the last write under it, or to what stood there before. -/
theorem get?_run (messages : List Message) (uri : String) :
    (s.run parse messages).store.get? uri =
      (Message.lastWrite? s.config.languageId messages uri).or (s.store.get? uri) := by
  induction messages using List.reverseRecOn with
  | nil => rfl
  | append_singleton messages m ih =>
    rw [run_concat, get?_handle, config_run, Message.lastWrite?_concat, ih]
    cases m.write? s.config.languageId with
    | none => rfl
    | some w =>
      by_cases huri : uri = w.1
      · simp [huri]
      · simp [huri]

theorem get?_run_start (config : Config) (messages : List Message) (uri : String) :
    ((start config).run parse messages).store.get? uri =
      Message.lastWrite? config.languageId messages uri := by
  rw [get?_run]
  exact Option.or_none

/-- The documents of a session are the last ones that were written. After any messages every name
    leads to the last write under it, and to nothing if there is none; the same holds at the end of a
    served stream for the messages that were handled. A message that writes nothing changes no
    document, a write under one name changes no document under another, and no document is lost. -/
theorem store_holds_last_write (parse : Parser) (explain : Explanation) (config : Config) :
    (∀ (messages : List Message) (uri : String),
      ((start config).run parse messages).store.get? uri =
        Message.lastWrite? config.languageId messages uri) ∧
    (∀ bodies : List Bytes, (∀ body ∈ bodies, body.length < Frame.bufferLimit) → ∀ uri : String,
      (serve parse (start config) (Frame.writeAll bodies) explain).server.store.get? uri =
        Message.lastWrite? config.languageId
          (Message.untilExit (bodies.filterMap Message.ofBytes?)) uri) ∧
    (∀ (messages : List Message) (m : Message) (uri : String),
      (∀ w ∈ m.write? config.languageId, w.1 ≠ uri) →
        ((start config).run parse (messages ++ [m])).store.get? uri =
          ((start config).run parse messages).store.get? uri) ∧
    ∀ (messages later : List Message) (uri : String),
      (((start config).run parse messages).store.get? uri).isSome →
        (((start config).run parse (messages ++ later)).store.get? uri).isSome := by
  refine ⟨get?_run_start config, fun bodies hbodies uri => ?_, fun messages m uri h => ?_,
    fun messages later uri h => ?_⟩
  · rw [(serve_writeAll parse explain (by simp [start]) hbodies).1, get?_run_start]
  · rw [get?_run_start, get?_run_start, Message.lastWrite?_concat]
    split
    · rename_i w hw
      rw [if_neg fun huri => h w hw huri.symm]
    · rfl
  · induction later using List.reverseRecOn with
    | nil => rwa [List.append_nil]
    | append_singleton later m ih =>
      rw [← List.append_assoc, run_concat]
      exact isSome_get?_handle ih m

/-- A document is opened and then changed twice in one message, which is sent as a request. -/
def openAndChange : List Message :=
  [.notification "textDocument/didOpen" (.object [("textDocument", .object
      [("uri", .string "file:///a"), ("languageId", .string "12dpl"), ("version", .ofInt 1),
        ("text", .string "x")])]),
    .request (.number 5) "textDocument/didChange" (.object [("textDocument", .object
      [("uri", .string "file:///a"), ("version", .ofInt 2)]),
        ("contentChanges", .array [.object [("text", .string "y")], .object [("text", .string "z")]])])]

theorem lastWrite?_openAndChange :
    Message.lastWrite? "12dpl" openAndChange "file:///a" = some ⟨"z", 2⟩ := by
  with_unfolding_all rfl

theorem store_holds_last_write_openAndChange :
    ((start .default).run (fun _ => none) openAndChange).store.get? "file:///a" = some ⟨"z", 2⟩ ∧
      ((start .default).run (fun _ => none) (openAndChange ++ [.response (.number 6)])).store.get?
        "file:///a" = some ⟨"z", 2⟩ ∧
      (((start .default).run (fun _ => none) (openAndChange ++ openAndChange)).store.get?
        "file:///a").isSome = true ∧
      (serve (fun _ => none) (start .default) (Frame.writeAll [Bytes.ofString "?"])).server.store.get?
        "file:///a" = none := by
  obtain ⟨hrun, hserve, hother, hkept⟩ := store_holds_last_write (fun _ => none) .silent .default
  have hlast := (hrun openAndChange "file:///a").trans lastWrite?_openAndChange
  refine ⟨hlast, ?_, hkept openAndChange openAndChange "file:///a" (by rw [hlast]; rfl), ?_⟩
  · rw [hother openAndChange (.response (.number 6)) "file:///a" (by simp [Message.write?]), hlast]
  · rw [hserve [Bytes.ofString "?"] (by decide) "file:///a"]
    with_unfolding_all rfl

end Server

end TwelveD
