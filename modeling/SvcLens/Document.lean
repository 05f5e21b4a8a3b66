import SvcLens.Inlay
import SvcLens.Listing

namespace SvcLens

structure Document where
  uri : String
  version : Int
  text : String
  tokens : TokenTable

namespace Document

def ofText (uri text : String) (version : Int) : Document :=
  ⟨uri, version, text, .ofText text⟩

def update (d : Document) (text : String) (version : Option Int) : Document :=
  { d with version := version.getD (d.version + 1), text, tokens := .ofText text }

def findings (d : Document) (syscalls : SyscallTable) (reporting : Bool) :
    Except Numeral.Error Analysis.Findings :=
  analyze ⟨syscalls, Syscall.standardStreams, reporting⟩ d.tokens

inductive Query where
  | state
  | findings (syscalls : SyscallTable) (reporting : Bool)
  | inlays (syscalls : SyscallTable)
  | listing (syscalls : SyscallTable)
  | token (line column : Int)

inductive Answer where
  | state (d : Document)
  | findings (found : Analysis.Findings)
  | inlays (shown : List Inlay)
  | listing (text : String)
  | token (t : Option Token)

def answer (d : Document) : Query → Except Numeral.Error Answer
  | .state => return .state d
  | .findings syscalls reporting => return .findings (← d.findings syscalls reporting)
  | .inlays syscalls =>
    return .inlays (Inlay.ofHints d.text (← d.findings syscalls false).hintTable)
  | .listing syscalls =>
    return .listing (Listing.render d.text (← d.findings syscalls false).hintTable)
  | .token line column =>
    return .token (Token.atCursor ((d.tokens.get? line).getD []) column)

end Document

structure Workspace where
  documents : List (String × Document) := []

namespace Workspace

def get? (w : Workspace) (name : String) : Option Document :=
  w.documents.lookup name

def put (w : Workspace) (name : String) (d : Document) : Workspace :=
  ⟨(name, d) :: w.documents.filter (·.1 != name)⟩

inductive Step where
  | opened (name uri text : String) (version : Int)
  | updated (name text : String) (version : Option Int) (target : String)

def Step.target : Step → String
  | .opened name .. => name
  | .updated _ _ _ target => target

-- The open documents after a step. Nothing comes of an update of a document that is not open.
def after (w : Workspace) : Step → Workspace
  | .opened name uri text version => w.put name (.ofText uri text version)
  | .updated name text version target =>
    match w.get? name with
    | none => w
    | some d => w.put target (d.update text version)

inductive Request where
  | change (step : Step)
  | ask (name : String) (query : Document.Query)

def Request.target? : Request → Option String
  | .change step => some step.target
  | .ask .. => none

-- The open documents after a request, and the answer to it. A change is answered with the document
-- that it leads to. Nothing is answered about a document that is not open.
def serve (w : Workspace) : Request → Workspace × Option (Except Numeral.Error Document.Answer)
  | .change step => (w.after step, ((w.after step).get? step.target).map (·.answer .state))
  | .ask name query => (w, (w.get? name).map (·.answer query))

def ofRequests (history : List Request) : Workspace :=
  history.foldl (fun w r => (w.serve r).1) {}

end Workspace

end SvcLens
