import PacketGen.Host.FileTree
import PacketGen.Main
import PacketGen.Proofs.FirstOccurrence
import PacketGen.Proofs.IdTable.FirstDeclaration
import PacketGen.Proofs.Generated.MemberName
import PacketGen.Proofs.Generated.MethodText
import PacketGen.Proofs.Generated.GoStatement
import PacketGen.Proofs.Generated.BufferRuntime
import PacketGen.Proofs.Generated.ReadInvertsWrite
import PacketGen.Proofs.Field.PositionalReading
import PacketGen.Proofs.PacketClass.Inversion
import PacketGen.Proofs.Text.Trim
import PacketGen.Proofs.Generated.KeptStatements
import PacketGen.Proofs.Text.WordSearch
import PacketGen.Proofs.Brackets.Balanced
import PacketGen.Proofs.Source.Layout
import PacketGen.Proofs.PacketClass.CodeLines
import PacketGen.Proofs.PacketClass.Search
import PacketGen.Proofs.PacketClass.Finding
import PacketGen.Proofs.Statement.Reading
import PacketGen.Proofs.Statement.Source
import PacketGen.Proofs.Constant.Reading
import PacketGen.Proofs.PacketClass.Between
import PacketGen.Proofs.Field.Source
import PacketGen.Proofs.Packet.Source
import PacketGen.Proofs.Token.Spacing
import PacketGen.Proofs.Statement.Grammar
import PacketGen.Proofs.Diagnostic.FileNumber
import PacketGen.Proofs.Run.History
import PacketGen.Proofs.Generated.Dispatch
import PacketGen.Proofs.IdTable.Names
import PacketGen.Proofs.Run.Isolation
import PacketGen.Proofs.Generated.GoConstants
import PacketGen.Proofs.IdTable.Slots
import PacketGen.Proofs.Generated.IdentifierEntries
import PacketGen.Proofs.Generated.IdentifierText
import PacketGen.Proofs.Generated.IdentifierMeaning
import PacketGen.Proofs.Text.Encoding
import PacketGen.Proofs.Comment.Bytes
import PacketGen.Proofs.Comment.Blanking
import PacketGen.Proofs.CommandLine.Arguments
import PacketGen.Proofs.CommandLine.AllOrNothing
import PacketGen.Proofs.Json.StringText
import PacketGen.Proofs.Json.Reads
import PacketGen.Proofs.Json.Value
import PacketGen.Proofs.Report.Contents
import PacketGen.Proofs.Generated.GoDeclarations
import PacketGen.Proofs.Generated.IdentifierDeclarations
import PacketGen.Proofs.Generated.PacketDeclarations
import PacketGen.Proofs.Text.Replacement
import PacketGen.Proofs.Generated.FileDeclarations
import PacketGen.Proofs.Generated.NameClashes
import PacketGen.Proofs.Run.DeclaredNames
import PacketGen.Proofs.Field.Neighbours
import PacketGen.Proofs.Field.Splitting
import PacketGen.Proofs.IdTable.Indexed
import PacketGen.Proofs.IdTable.Resolution
import PacketGen.Proofs.IdTable.Redeclaration
import PacketGen.Proofs.IdTable.SlotRange
import PacketGen.Proofs.IdTable.SlotRoom
import PacketGen.Proofs.Brackets.Matching
import PacketGen.Proofs.Brackets.FirstBlock
import PacketGen.Proofs.Brackets.Bytes
import PacketGen.Proofs.PacketClass.Nesting
import PacketGen.Proofs.Text.WordPlace
import PacketGen.Proofs.PacketClass.Declared
import PacketGen.Proofs.PacketClass.Outcome
import PacketGen.Proofs.Constant.Grammar
import PacketGen.Proofs.Constant.Numeral
import PacketGen.Proofs.Packet.Labels
import PacketGen.Proofs.Comment.Appending
import PacketGen.Proofs.Text.Within
import PacketGen.Proofs.PacketClass.Locality
import PacketGen.Proofs.Text.WordRestart
import PacketGen.Proofs.Text.Checked
import PacketGen.Proofs.Comment.Checked
import PacketGen.Proofs.PacketClass.Checked
import PacketGen.Proofs.Comment.Cutting
import PacketGen.Proofs.Comment.SourceLines
import PacketGen.Proofs.IdTable.Located
import PacketGen.Proofs.Generated.StructText
import PacketGen.Proofs.Generated.MemberUse
import PacketGen.Proofs.Generated.MemberTypes
import PacketGen.Proofs.Generated.MemberClashes
import PacketGen.Proofs.Text.NameCase
import PacketGen.Proofs.Generated.ExportedMember
import PacketGen.Proofs.IdTable.Stems
import PacketGen.Proofs.Generated.FallbackText
import PacketGen.Proofs.Text.FirstWord
import PacketGen.Proofs.Generated.TemplateText
import PacketGen.Proofs.Json.Grammar
import PacketGen.Proofs.Json.Skipping
import PacketGen.Proofs.Json.RecordText
import PacketGen.Proofs.Json.NamedValues
import PacketGen.Proofs.Config.Overlay
