import BlockScript.Document.Token

/-!
# From tokens to documents

`Document.grow` builds the tree in one pass over the tokens, with the containers that are still
open on an explicit stack; the recursion is on the tokens alone, so the nesting of a text costs no
depth of recursion. Where the tokens do not continue the document, `Document.abandon` closes every
open container around a `Document.broken`.

`Document.parse` is the whole way from octets to a tree, with a flag for anything that follows it.
-/

namespace BlockScript.Document

/-- A container whose end has not been reached. What is complete stands innermost first. -/
inductive Opened where
  /-- An array, with its complete items. -/
  | array (done : List Document)
  /-- An object, with its complete members and the key of the one in progress. -/
  | object (done : List (Option String × Document)) (key : Option String)

/-- What the next token has to be. -/
inductive Expected where
  /-- A value, or, just after an opening bracket, the closing one. -/
  | value (closable : Bool)
  /-- A key, or, just after an opening brace, the closing one. -/
  | key (closable : Bool)
  /-- The colon after a key. -/
  | colon
  /-- A comma or the end of the innermost container. -/
  | separator

/-- Where one more token leads. -/
inductive Progress where
  /-- On to the next token. -/
  | more (expected : Expected) (stack : List Opened)
  /-- To the end of the document. -/
  | complete (root : Document)
  /-- Nowhere: the token does not continue the document. -/
  | failed

/-- Puts a complete value in place inside the innermost open container; without one, it is the
document. -/
def place (value : Document) : List Opened → Progress
  | [] => .complete value
  | .array done :: outer => .more .separator (.array (value :: done) :: outer)
  | .object done key :: outer => .more .separator (.object ((key, value) :: done) none :: outer)

/-- The effect of one token. -/
def advance : Expected → List Opened → Token → Progress
  | .value _, stack, .atom value => place value stack
  | .value _, stack, .text (some value) => place (.text value) stack
  | .value _, stack, .text none => place .unreadable stack
  | .value _, stack, .openArray => .more (.value true) (.array [] :: stack)
  | .value _, stack, .openObject => .more (.key true) (.object [] none :: stack)
  | .value true, .array done :: outer, .closeArray => place (.array done.reverse) outer
  | .key _, .object done _ :: outer, .text key => .more .colon (.object done key :: outer)
  | .key true, .object done _ :: outer, .closeObject => place (.object done.reverse) outer
  | .colon, stack, .colon => .more (.value false) stack
  | .separator, .array done :: outer, .comma => .more (.value false) (.array done :: outer)
  | .separator, .array done :: outer, .closeArray => place (.array done.reverse) outer
  | .separator, .object done key :: outer, .comma =>
    .more (.key false) (.object done key :: outer)
  | .separator, .object done _ :: outer, .closeObject => place (.object done.reverse) outer
  | _, _, _ => .failed

/-- The root when the text breaks off with `value` as the last thing in the innermost container. -/
def abandon (value : Document) : List Opened → Document
  | [] => value
  | .array done :: outer => abandon (.array (value :: done).reverse) outer
  | .object done key :: outer => abandon (.object ((key, value) :: done).reverse) outer

/-- A document's tree, and whether more text follows it. -/
structure Parsed where
  /-- The tree. -/
  root : Document
  /-- Whether anything but blanks follows. -/
  trailing : Bool

/-- Continues a document over the remaining tokens. -/
def grow : Expected → List Opened → List Token → Parsed
  | _, stack, [] => ⟨abandon .broken stack, false⟩
  | expected, stack, token :: rest =>
    match advance expected stack token with
    | .more expected stack => grow expected stack rest
    | .complete root => ⟨root, !rest.isEmpty⟩
    | .failed => ⟨abandon .broken stack, false⟩

/-- The document of a text. -/
def parse (octets : List UInt8) : Parsed :=
  grow (.value false) [] (Token.scan octets)

end BlockScript.Document
