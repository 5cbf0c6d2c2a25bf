import ObjcOutline.Text.Basic
import ObjcOutline.Text.Space
import ObjcOutline.Text.Utf8
import ObjcOutline.Text.Quoted
import ObjcOutline.Source.Extraction
import ObjcOutline.Outline
import ObjcOutline.SymbolMap.Build
import ObjcOutline.SymbolMap.Document
import ObjcOutline.Storage.FileTree
import ObjcOutline.Pipeline.Engine
import ObjcOutline.Tools.Arguments
import ObjcOutline.Yaml.Fault
import ObjcOutline.Yaml.Input
import ObjcOutline.Yaml.Buffer
import ObjcOutline.Yaml.Cursor
import ObjcOutline.Yaml.Folding
import ObjcOutline.Yaml.Plain
import ObjcOutline.Yaml.QuotedScalar
import ObjcOutline.Yaml.BlockScalar
import ObjcOutline.Yaml.Scan
import ObjcOutline.Config.Load
import ObjcOutline.Main
import ObjcOutline.Proofs.SymbolOrder
import ObjcOutline.Proofs.RepairedLines
import ObjcOutline.Proofs.MapDocument
import ObjcOutline.Proofs.Rereading
import ObjcOutline.Proofs.DeclaredLines
import ObjcOutline.Proofs.Entries
import ObjcOutline.Proofs.Loosening
import ObjcOutline.Proofs.Insertion
import ObjcOutline.Proofs.Respacing
import ObjcOutline.Proofs.BlockExtent
import ObjcOutline.Proofs.ShownSymbols
import ObjcOutline.Proofs.Documents
import ObjcOutline.Proofs.EngineSessions
import ObjcOutline.Proofs.CommandOutput
import ObjcOutline.Proofs.Queries
import ObjcOutline.Proofs.WindowLoop
import ObjcOutline.Proofs.ReturnTypes
import ObjcOutline.Proofs.ProtocolLists
import ObjcOutline.Proofs.PropertyNames
import ObjcOutline.Proofs.SurroundingSpace
import ObjcOutline.Proofs.FieldLoop
import ObjcOutline.Proofs.HeaderOffsets
import ObjcOutline.Proofs.HeaderGrammar
import ObjcOutline.Proofs.MemberLines
import ObjcOutline.Proofs.NameSearch
