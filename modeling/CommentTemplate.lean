import CommentTemplate.Tag.Locate
import CommentTemplate.Tag.Json
import CommentTemplate.Template
import CommentTemplate.CommandLine.Run
import CommentTemplate.Main
import CommentTemplate.Proofs.Tag.Forest
import CommentTemplate.Proofs.Compile.Stages
import CommentTemplate.Proofs.Compile.Strictness
import CommentTemplate.Proofs.Compile.WellFormed
import CommentTemplate.Proofs.Render.Interpreter
import CommentTemplate.Proofs.Compile.Session
import CommentTemplate.Proofs.Json.Printed
import CommentTemplate.Proofs.Render.Semantics
import CommentTemplate.Proofs.Cache.Transparency
import CommentTemplate.Proofs.Template.SharedCache
import CommentTemplate.Proofs.Block.Rewriting
import CommentTemplate.Proofs.Cache.FiniteMap
import CommentTemplate.Proofs.Template.Memo
import CommentTemplate.Proofs.CommandLine.Report
import CommentTemplate.Proofs.Compile.Spelling
import CommentTemplate.Proofs.Replace.Leftover
import CommentTemplate.Proofs.Include.Pieces
import CommentTemplate.Proofs.Include.Cycle
import CommentTemplate.Proofs.Files.Containment
import CommentTemplate.Proofs.Replace.Insertion
import CommentTemplate.Proofs.Json.Reordering
import CommentTemplate.Proofs.Cache.Separation
import CommentTemplate.Proofs.Program.Forms
import CommentTemplate.Proofs.Cache.Outdated
import CommentTemplate.Proofs.Render.Missing
import CommentTemplate.Proofs.Render.Interchange
import CommentTemplate.Proofs.Render.Composition
import CommentTemplate.Proofs.Render.Unmentioned
import CommentTemplate.Proofs.Tag.Closers
import CommentTemplate.Proofs.Tag.Leftmost
import CommentTemplate.Proofs.Files.InMemory
import CommentTemplate.Proofs.CommandLine.Status
import CommentTemplate.Proofs.Render.Guarded
import CommentTemplate.Proofs.Tag.Coherence
