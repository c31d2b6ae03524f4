import IncludeFlattener.Main
import IncludeFlattener.Session
import IncludeFlattener.Proofs.Flattening.Graph
import IncludeFlattener.Proofs.Flattening.LineMap
import IncludeFlattener.Proofs.Flattening.Bijection
import IncludeFlattener.Proofs.Flattening.PlainText
import IncludeFlattener.Proofs.Flattening.Reads
import IncludeFlattener.Proofs.Flattening.Nesting
import IncludeFlattener.Proofs.Flattening.Evidence
import IncludeFlattener.Proofs.Flattening.Directives
import IncludeFlattener.Proofs.Flattening.Agreement
import IncludeFlattener.Proofs.Flattening.Redundancy
import IncludeFlattener.Proofs.Flattening.Contribution
import IncludeFlattener.Proofs.Flattening.Spelling
import IncludeFlattener.Proofs.FileTree.InMemory
import IncludeFlattener.Proofs.FileTree.Decoding
import IncludeFlattener.Proofs.Flattening.Idempotence
import IncludeFlattener.Proofs.Flattening.Verbatim
import IncludeFlattener.Proofs.Session.Independence
import IncludeFlattener.Proofs.CommandLine.Story
import IncludeFlattener.Proofs.Path.Shape
import IncludeFlattener.Proofs.Path.LexicalWalk
import IncludeFlattener.Proofs.Path.SameRoot
import IncludeFlattener.Proofs.Chunk.Position
import IncludeFlattener.Proofs.Flattening.Runs
import IncludeFlattener.Proofs.CompilerLog.LineByLine
import IncludeFlattener.Proofs.Directive.Offsets
