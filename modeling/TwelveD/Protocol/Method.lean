/-!
# Methods

The names of requests and notifications.
-/

namespace TwelveD

/-- What a message asks for or announces. -/
inductive Method where
  /-- The client introduces itself. -/
  | introduce
  | initialized
  | shutdown
  | exit
  | didOpen
  | didChange
  | completion
  | completionResolve
  | definition
  | formatting
  | hover
  /-- A name that starts with `$/`, which a server is free to ignore. -/
  | reserved (name : String)
  /-- Any other name. -/
  | unknown (name : String)
  deriving DecidableEq, Repr

namespace Method

/-- The methods with a name of their own. -/
def known : List (String × Method) :=
  [("initialize", introduce), ("initialized", initialized), ("shutdown", shutdown), ("exit", exit),
    ("textDocument/didOpen", didOpen), ("textDocument/didChange", didChange),
    ("textDocument/completion", completion), ("completionItem/resolve", completionResolve),
    ("textDocument/definition", definition), ("textDocument/formatting", formatting),
    ("textDocument/hover", hover)]

/-- Whether a name is reserved: `$/` and at least one character more. -/
def isReservedName (name : String) : Bool :=
  match name.toList with
  | '$' :: '/' :: _ :: _ => true
  | _ => false

/-- The method with a given name. -/
def ofName (name : String) : Method :=
  match known.lookup name with
  | some m => m
  | none => if isReservedName name then reserved name else unknown name

/-- Whether a method never gets a reply, even if it is sent as a request. -/
def isNotification : Method → Bool
  | initialized | exit | didOpen | didChange => true
  | _ => false

end Method

end TwelveD
