import CubeQuery.Mdx.Fragment
import CubeQuery.Mdx.Token

/-!
# Set and value expressions

The expressions a compiled query is built from, and their tokens. How sets are wrapped is decided by
whoever nests the nodes; the tokens only follow the tree.
-/

namespace CubeQuery.Mdx

inductive SortDirection where
  | ascending
  | descending
deriving DecidableEq, Repr

/-- Hierarchy-breaking sort flags, so that a set is sorted as a whole. -/
def SortDirection.token : SortDirection → Token
  | .ascending => .basc
  | .descending => .bdesc

inductive MemberAttribute where
  | caption
  | key
  | name
  | uniqueName
deriving DecidableEq, Repr

/-- The attribute of a name, whatever the case of its ASCII letters. -/
def MemberAttribute.ofName? (name : String) : Option MemberAttribute :=
  match name.map Char.toLower with
  | "caption" => some .caption
  | "key" => some .key
  | "name" => some .name
  | "unique_name" => some .uniqueName
  | "uniquename" => some .uniqueName
  | _ => none

/-- A value per tuple: a measure, or something about the current member of a hierarchy. -/
inductive ValueExpr where
  | measure (uniqueName : String)
  | property (hierarchy property : String)
  | attribute (hierarchy : String) (which : MemberAttribute)
deriving DecidableEq, Repr

def currentMember (hierarchy : String) : List Token := [.uniqueIdent hierarchy, .dot, .currentMember]

def propertiesCall (property : String) : List Token :=
  [.dot, .properties, .lparen, .literal property, .rparen]

def ValueExpr.tokens : ValueExpr → List Token
  | .measure uniqueName => [.uniqueIdent uniqueName]
  | .property hierarchy name => currentMember hierarchy ++ propertiesCall name
  | .attribute hierarchy .caption => currentMember hierarchy ++ [.dot, .caption]
  | .attribute hierarchy .name => currentMember hierarchy ++ [.dot, .name]
  | .attribute hierarchy .uniqueName => currentMember hierarchy ++ [.dot, .uniqueName]
  | .attribute hierarchy .key => currentMember hierarchy ++ propertiesCall "MEMBER_KEY"

def ValueExpr.text (v : ValueExpr) : String := serialize v.tokens

/-- A set on an axis or in the slicer; unique names are taken as they are. -/
inductive SetExpr where
  | levelMembers (level : String)
  | member (uniqueName : String)
  | fragment (f : Fragment)
  | set (items : List SetExpr)
  | descendants (root : SetExpr) (level : String)
  | namedSet (name : String)
  | crossJoin (sets : List SetExpr)
  | order (base : SetExpr) (key : ValueExpr) (direction : SortDirection)
  | subset (base : SetExpr) (start : Nat) (count : Option Nat)
  | distinct (base : SetExpr)
deriving Repr

namespace SetExpr

def braced (item : SetExpr) : SetExpr := .set [item]

mutual

def tokens : SetExpr → List Token
  | .levelMembers level => [.uniqueIdent level, .dot, .members]
  | .member uniqueName => [.uniqueIdent uniqueName]
  | .fragment f => [.fragment f.text]
  | .set items => .lbrace :: (separator.intercalate (listTokens items) ++ [.rbrace])
  | .descendants root level => callTokens "descendants" [root.tokens, [.uniqueIdent level]]
  | .namedSet name => [.bracketed name]
  | .crossJoin sets => [Token.space, .star, .space].intercalate (listTokens sets)
  | .order base key direction => callTokens "order" [base.tokens, key.tokens, [direction.token]]
  | .subset base start none => callTokens "subset" [base.tokens, [.integer start]]
  | .subset base start (some count) =>
    callTokens "subset" [base.tokens, [.integer start], [.integer count]]
  | .distinct base => callTokens "distinct" [base.tokens]

def listTokens : List SetExpr → List (List Token)
  | [] => []
  | s :: rest => s.tokens :: listTokens rest

end

def text (s : SetExpr) : String := serialize s.tokens

end SetExpr

end CubeQuery.Mdx
