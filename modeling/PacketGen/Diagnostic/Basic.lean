import PacketGen.Text.Offset

/-!
# Diagnostics

A diagnostic has a code, a message and labels that point into source files. How it is shown beside
the labelled lines is the business of `PacketGen.Diagnostic.Snippet`.
-/

namespace PacketGen

/-- The kinds of error. -/
inductive ErrorCode where
  | duplicateIdentifier
  | inconsistentAlias
  | emptyIdTable
  | missingPacketClass
  | unbalancedBrackets
  | missingProcedureBody
  | asymmetricProcedures
  | unreadableSource
deriving Repr, DecidableEq

namespace ErrorCode

/-- The kinds of error in the order of their numbers. -/
def all : List ErrorCode :=
  [duplicateIdentifier, inconsistentAlias, emptyIdTable, missingPacketClass, unbalancedBrackets,
    missingProcedureBody, asymmetricProcedures, unreadableSource]

/-- The number of a kind of error, from 1. -/
def number : ErrorCode → Nat
  | duplicateIdentifier => 1
  | inconsistentAlias => 2
  | emptyIdTable => 3
  | missingPacketClass => 4
  | unbalancedBrackets => 5
  | missingProcedureBody => 6
  | asymmetricProcedures => 7
  | unreadableSource => 8

def ofNumber? (n : Nat) : Option ErrorCode := all.find? (·.number == n)

/-- The code as it is shown: `E5`. -/
def render (e : ErrorCode) : String := s!"E{e.number}"

end ErrorCode

/-- What a label marks: the fault itself, or a place that explains it. -/
inductive LabelStyle where
  | primary
  | secondary
deriving Repr, DecidableEq

namespace LabelStyle

def keyword : LabelStyle → String
  | primary => "primary"
  | secondary => "secondary"

end LabelStyle

/-- A marked byte range of a source file. -/
structure Label where
  style : LabelStyle
  /-- Number of the file among the sources. -/
  file : Nat
  span : Span
  /-- Shown beside the marks; may be empty. -/
  message : String
deriving Repr, DecidableEq

namespace Label

def primary (file : Nat) (span : Span) (message : String) : Label :=
  ⟨.primary, file, span, message⟩

def secondary (file : Nat) (span : Span) (message : String) : Label :=
  ⟨.secondary, file, span, message⟩

end Label

/-- One reported error. -/
structure Diagnostic where
  code : ErrorCode
  message : String
  labels : List Label
deriving Repr, DecidableEq

namespace Diagnostic

/-- The messages of several diagnostics in one line. -/
def summary (ds : List Diagnostic) : String := "; ".intercalate (ds.map (·.message))

end Diagnostic

end PacketGen
