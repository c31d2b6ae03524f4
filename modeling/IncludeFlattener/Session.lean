/-
IncludeFlattener.Session — a row of operations on one flattener and the
files that it reads.

A session keeps a keyword, the files with their fixed answers, the reads
since they were last asked for, and the chunks of the last success. Nothing
else passes from one operation to the next: flattening a path has the
answer that the keyword and the files give at that moment, and an operation
that fails changes none of them.
-/
import IncludeFlattener.CompilerLog
import IncludeFlattener.Flattening
import IncludeFlattener.Source.Script
namespace IncludeFlattener

/-- The kinds of failure that the answer to a path can be fixed to. -/
inductive Fault where
  | notFound
  | permissionDenied
  | invalidData
  | invalidInput
  | interrupted
  | unexpectedEnd
  | timedOut
  | other
  deriving DecidableEq, Repr

namespace Fault

/-- The kind in words. -/
def description : Fault → Text
  | .notFound => "entity not found".toList
  | .permissionDenied => "permission denied".toList
  | .invalidData => "invalid data".toList
  | .invalidInput => "invalid input parameter".toList
  | .interrupted => "operation interrupted".toList
  | .unexpectedEnd => "unexpected end of file".toList
  | .timedOut => "timed out".toList
  | .other => "other error".toList

/-- The failure of a read with this fault: only a file that was not found
is missing, and a fault without a message of its own is described. -/
def failure (f : Fault) (message : Option Text) : ReadFailure :=
  if f = .notFound then .missing
  else .unopened (message.getD f.description)

end Fault

/-- What a session keeps. -/
structure Session where
  keyword : Keyword
  files : Script
  /-- The paths read since the reads were last asked for. -/
  reads : List Path
  /-- The chunks of the last success that gave chunks. -/
  chunks : List Chunk

namespace Session

/-- What can be asked of a session. -/
inductive Operation where
  /-- Puts a file into the store. -/
  | insert (path : Path) (contents : Text)
  /-- Fixes the answer to a path. -/
  | fix (path : Path) (answer : Answer)
  /-- Leaves the answer to a path to the store. -/
  | release (path : Path)
  /-- Asks for the reads since the last time. -/
  | reads
  /-- Asks for the keyword. -/
  | keyword
  /-- Takes another keyword, unless its text is empty. -/
  | rekey (keyword : Text)
  /-- Flattens a path and gives the text. -/
  | text (path : Path)
  /-- Flattens a path and gives the chunks. -/
  | chunks (path : Path)
  /-- Flattens a path and gives the text with its account. -/
  | account (path : Path)
  /-- Locates a line in the last chunks. -/
  | locate (line : Nat)
  /-- Remaps a log by the last chunks. -/
  | remap (log : Text)
  /-- Gives the text of the last chunks. -/
  | joined

/-- What a session answers. -/
inductive Reply where
  | done
  | reads (paths : List Path)
  | keyword (keyword : Keyword)
  | emptyKeyword
  | text (text : Text)
  | chunks (chunks : List Chunk)
  | account (flattened : Flattened)
  | failed (failure : Failure)
  | located (place : Option (Path × Nat))
  | log (log : Text)

/-- A session that starts with a keyword and no files. -/
def start (keyword : Keyword) : Session := ⟨keyword, .empty, [], []⟩

/-- The walk from a path as things stand. -/
def walkFrom (s : Session) (path : Path) : Walk :=
  walk s.files.source s.keyword path

/-- The session after a walk: its reads are kept, and its chunks, where it
succeeded and they are to be kept. -/
def after (s : Session) (w : Walk) (keepChunks : Bool) : Session :=
  { s with
    reads := s.reads ++ w.reads
    chunks := if keepChunks && w.failure.isNone then w.chunks else s.chunks }

/-- The reply to a flattening, made from its result. -/
def replyTo (w : Walk) (reply : Flattened → Reply) : Reply :=
  match w.result with
  | .ok f => reply f
  | .error e => .failed e

/-- One operation: the reply and the session afterwards. -/
def perform (s : Session) : Operation → Reply × Session
  | .insert path contents =>
    (.done, { s with files := s.files.insert path contents })
  | .fix path answer => (.done, { s with files := s.files.fix path answer })
  | .release path => (.done, { s with files := s.files.release path })
  | .reads => (.reads s.reads, { s with reads := [] })
  | .keyword => (.keyword s.keyword, s)
  | .rekey text =>
    match Keyword.ofText? text with
    | some keyword => (.done, { s with keyword })
    | none => (.emptyKeyword, s)
  | .text path =>
    let w := s.walkFrom path
    (replyTo w (.text ·.text), s.after w false)
  | .chunks path =>
    let w := s.walkFrom path
    (replyTo w (.chunks ·.chunks), s.after w true)
  | .account path =>
    let w := s.walkFrom path
    (replyTo w .account, s.after w true)
  | .locate line => (.located (Chunk.locate s.chunks line), s)
  | .remap log => (.log (CompilerLog.remap s.chunks log), s)
  | .joined => (.text (Chunk.joined s.chunks), s)

/-- The replies to a row of operations. -/
def run (s : Session) : List Operation → List Reply
  | [] => []
  | op :: rest => (s.perform op).1 :: run (s.perform op).2 rest

/-- The session after a row of operations. -/
def final (s : Session) : List Operation → Session
  | [] => s
  | op :: rest => final (s.perform op).2 rest

theorem run_append : ∀ (s : Session) (xs ys : List Operation),
    s.run (xs ++ ys) = s.run xs ++ (s.final xs).run ys
  | _, [], _ => rfl
  | s, op :: xs, ys => by
      simp [run, final, run_append (s.perform op).2 xs ys]

end Session

end IncludeFlattener
