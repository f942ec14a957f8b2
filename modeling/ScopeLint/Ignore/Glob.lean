import ScopeLint.Text.Utf8

/-!
# Globs

A glob is a text with wildcards that matches whole paths.  `?` and `*` match
within a name; `**` as a whole name matches any names; a class in brackets
matches one octet, a slash too; braces hold alternatives; a backslash takes the
next character as it is.  Paths are matched octet by octet.

The reader goes in two steps: `lex` settles escapes and classes, `parse` the
stars and braces.  Matching follows the tokens: each token gives the rests that
it can leave of a path, and a glob matches when all of its tokens together can
leave nothing.  A glob that nests deeper than `maxDepth` is of no use.
-/

namespace ScopeLint

namespace Glob

/-- A piece of a glob. -/
inductive Token where
  /-- Some octets as they are. -/
  | exactly (octets : List UInt8)
  /-- One octet of a name. -/
  | one
  /-- Any octets of a name. -/
  | many
  /-- Any names, each with a slash after it, or one slash, or nothing. -/
  | leading
  /-- A slash and anything after it. -/
  | trailing
  /-- A slash, and any names with a slash after each. -/
  | inner
  /-- One octet that is, or is not, in one of some ranges; the slash is no exception. -/
  | oneOf (negated : Bool) (ranges : List (UInt8 × UInt8))
  /-- One of some globs. -/
  | choice (alternatives : List (List Token))
  deriving Repr, Inhabited

/-! ## Escapes and classes -/

/-- A character or a class of a glob. -/
inductive Lexeme where
  /-- A character that may be a wildcard. -/
  | plain (c : Char)
  /-- A character that stands for itself. -/
  | escaped (c : Char)
  /-- A class of ranges of characters. -/
  | cls (negated : Bool) (ranges : List (Char × Char))
  deriving DecidableEq, Repr

/-- A class that is being read. -/
structure Draft where
  /-- Whether no character of the class was read. -/
  fresh : Bool
  negated : Bool
  /-- Whether a hyphen was read that may join two ends of a range. -/
  joining : Bool
  /-- The ranges read, the last one first. -/
  ranges : List (Char × Char)
  deriving DecidableEq, Repr

namespace Draft

/-- Adds a character; none if it ends a range before its start. -/
def add? (draft : Draft) (c : Char) : Option Draft :=
  match draft.joining, draft.ranges with
  | true, (a, _) :: rest =>
    if c < a then none
    else some { draft with fresh := false, joining := false, ranges := (a, c) :: rest }
  | _, ranges => some { draft with fresh := false, joining := false, ranges := (c, c) :: ranges }

/-- The class that is closed; a hyphen at its end stands for itself. -/
def close (draft : Draft) : Lexeme :=
  let ranges := if draft.joining then ('-', '-') :: draft.ranges else draft.ranges
  .cls draft.negated ranges.reverse

end Draft

/-- Where the reader of characters and classes stands. -/
inductive Place where
  /-- Between two characters. -/
  | between
  /-- After a backslash. -/
  | escape
  /-- In a class; `after` is the text after its opening bracket. -/
  | inClass (draft : Draft) (after : List Char)

/-- The characters of a text in which an opening bracket is no class. -/
def lexOpen (escaped : Bool) : List Char → Option (List Lexeme)
  | [] => if escaped then none else some []
  | c :: rest =>
    if escaped then (lexOpen false rest).map (.escaped c :: ·)
    else if c = '\\' then lexOpen true rest
    else (lexOpen false rest).map (.plain c :: ·)

/-- The characters and classes of a text.  A bracket that is never closed opens
no class.  None for a range that ends before its start, and for a backslash at
the end. -/
def lex : Place → List Char → Option (List Lexeme)
  | .between, [] => some []
  | .escape, [] => none
  | .inClass _ after, [] => (lexOpen false after).map (.escaped '[' :: ·)
  | .between, c :: rest =>
    if c = '\\' then lex .escape rest
    else if c = '[' then lex (.inClass ⟨true, false, false, []⟩ rest) rest
    else (lex .between rest).map (.plain c :: ·)
  | .escape, c :: rest => (lex .between rest).map (.escaped c :: ·)
  | .inClass draft after, c :: rest =>
    if draft.fresh && !draft.negated && (c = '!' || c = '^') then
      lex (.inClass { draft with negated := true } after) rest
    else if c = ']' && !draft.fresh then
      (lex .between rest).map (draft.close :: ·)
    else if c = '-' && !draft.fresh && !draft.joining then
      lex (.inClass { draft with joining := true } after) rest
    else
      match draft.add? c with
      | some draft => lex (.inClass draft after) rest
      | none => none

/-! ## Stars and braces -/

/-- The octets of a character. -/
def ofChar (c : Char) : Token := .exactly (Utf8.encodeChar c)

/-- The ranges of octets of a range of characters: its two ends are written octet
by octet, with the range between the last octet of the one and the first of the
other. -/
def octetRanges (range : Char × Char) : List (UInt8 × UInt8) :=
  let single (bs : List UInt8) : List (UInt8 × UInt8) := bs.map fun b => (b, b)
  if range.1 = range.2 then single (Utf8.encodeChar range.1)
  else
    match (Utf8.encodeChar range.1).reverse, Utf8.encodeChar range.2 with
    | a :: as, b :: bs => single as.reverse ++ [(a, b)] ++ single bs
    | _, _ => []

/-- An open brace: the alternatives read before the current one, the last first,
and the tokens before the brace, the last first. -/
abbrev Brace := List (List Token) × List Token

/-- Puts a name of two stars after the tokens read, the last of them first; it
takes the place of the slash before it. -/
def putNames (tokens : List Token) (last : Bool) : List Token :=
  match tokens with
  | .leading :: _ | .trailing :: _ => tokens
  | _ => (if last then .trailing else .inner) :: tokens.drop 1

/-- The tokens of a glob: `before` is the character before, `tokens` are the
tokens read since the last brace or comma, the last first, and `braces` the open
braces.  None when braces do not match. -/
def parse (before : Option Char) (tokens : List Token) (braces : List Brace) :
    List Lexeme → Option (List Token)
  | [] => if braces.isEmpty then some tokens.reverse else none
  | .escaped c :: rest => parse (some c) (ofChar c :: tokens) braces rest
  | .cls negated ranges :: rest =>
    parse (some ']') (.oneOf negated (ranges.flatMap octetRanges) :: tokens) braces rest
  | .plain c :: rest =>
    if c = '?' then parse (some c) (.one :: tokens) braces rest
    else if c = '\x7b' then parse (some c) [] (([], tokens) :: braces) rest
    else if c = '\x7d' then
      match braces with
      | [] => none
      | (alternatives, outer) :: braces =>
        parse (some c) (.choice (alternatives.reverse ++ [tokens.reverse]) :: outer) braces rest
    else if c = ',' then
      match braces with
      | [] => parse (some c) (ofChar c :: tokens) [] rest
      | (alternatives, outer) :: braces =>
        parse (some c) [] ((tokens.reverse :: alternatives, outer) :: braces) rest
    else if c = '*' then
      match rest with
      | .plain '*' :: rest =>
        let isName := tokens.isEmpty || before = some '/' ||
          (!braces.isEmpty && (before = some ',' || before = some '\x7b'))
        match rest with
        | [] =>
          if tokens.isEmpty then parse (some '*') [.leading] braces []
          else if isName then parse (some '*') (putNames tokens true) braces []
          else parse (some '*') (.many :: .many :: tokens) braces []
        | .plain d :: after =>
          if isName && d = '/' then
            let tokens := if tokens.isEmpty then [.leading] else putNames tokens false
            parse (some d) tokens braces after
          else if isName && !tokens.isEmpty && !braces.isEmpty && (d = ',' || d = '\x7d') then
            parse (some '*') (putNames tokens true) braces (.plain d :: after)
          else parse (some '*') (.many :: .many :: tokens) braces (.plain d :: after)
        | rest => parse (some '*') (.many :: .many :: tokens) braces rest
      | rest => parse (some '*') (.many :: tokens) braces rest
    else parse (some c) (ofChar c :: tokens) braces rest

end Glob

/-- A glob. -/
abbrev Glob := List Glob.Token

namespace Glob

/-- The glob of a text, unless it is not well formed. -/
def ofText? (text : List Char) : Option Glob :=
  (lex .between text).bind (parse none [] [])

/-! ## Silence and depth -/

mutual

/-- Whether tokens say nothing, as braces around nothing. -/
def isSilent : List Token → Bool
  | [] => true
  | token :: rest => isSilentToken token && isSilent rest

/-- Whether a token says nothing. -/
def isSilentToken : Token → Bool
  | .choice alternatives => areSilent alternatives
  | _ => false

/-- Whether all of some globs say nothing. -/
def areSilent : List (List Token) → Bool
  | [] => true
  | tokens :: rest => isSilent tokens && areSilent rest

end

/-- How deep pieces lie that hold the pieces of some depths: not deeper if there is
only one. -/
def depthOfPieces : List Nat → Nat
  | [] => 0
  | [depth] => depth
  | depths => depths.foldl max 0 + 1

mutual

/-- The depths of the pieces that tokens are made of. -/
def pieceDepths : List Token → List Nat
  | [] => []
  | token :: rest => tokenDepths token ++ pieceDepths rest

/-- The depths of the pieces that a token is made of: an octet has no depth, a
class one more than the union of its ranges, and a star one more than its class.
Names of two stars are choices between a slash and a sequence. -/
def tokenDepths : Token → List Nat
  | .exactly octets => octets.map fun _ => 0
  | .one => [1]
  | .many => [2]
  | .leading | .inner => [4]
  | .trailing => [0, 1]
  | .oneOf _ ranges => [depthOfPieces (ranges.map fun _ => 0) + 1]
  | .choice alternatives =>
    if areSilent alternatives then [] else [depthOfPieces (alternativeDepths alternatives) + 1]

/-- The depths of some globs that do not say nothing. -/
def alternativeDepths : List (List Token) → List Nat
  | [] => []
  | tokens :: rest =>
    if isSilent tokens then alternativeDepths rest
    else depthOfPieces (pieceDepths tokens) :: alternativeDepths rest

end

/-- How deeply a glob nests, as a sequence between the two ends of a path. -/
def depth (glob : Glob) : Nat := (pieceDepths glob).foldl max 0 + 1

/-- The deepest that a glob may nest. -/
def maxDepth : Nat := 250

/-! ## Matching -/

/-- The octet of the slash. -/
def slash : UInt8 := 47

/-- The rests after the octets of a name. -/
def nameRests : List UInt8 → List (List UInt8)
  | [] => [[]]
  | b :: rest => (b :: rest) :: if b = slash then [] else nameRests rest

/-- All rests. -/
def allRests : List UInt8 → List (List UInt8)
  | [] => [[]]
  | b :: rest => (b :: rest) :: allRests rest

/-- The rests after each slash. -/
def slashRests : List UInt8 → List (List UInt8)
  | [] => []
  | b :: rest => if b = slash then rest :: slashRests rest else slashRests rest

/-- Whether an octet is in one of some ranges. -/
def inRanges (ranges : List (UInt8 × UInt8)) (b : UInt8) : Bool :=
  ranges.any fun r => r.1 ≤ b && b ≤ r.2

mutual

/-- The rests that a token can leave of a path. -/
def tokenRests (path : List UInt8) : Token → List (List UInt8)
  | .exactly octets => if octets.isPrefixOf path then [path.drop octets.length] else []
  | .one =>
    match path with
    | [] => []
    | b :: rest => if b = slash then [] else [rest]
  | .many => nameRests path
  | .leading => path :: slashRests path
  | .trailing =>
    match path with
    | [] => []
    | b :: rest => if b = slash then allRests rest else []
  | .inner =>
    match path with
    | [] => []
    | b :: rest => if b = slash then rest :: slashRests rest else []
  | .oneOf negated ranges =>
    match path with
    | [] => []
    | b :: rest => if inRanges ranges b != negated then [rest] else []
  | .choice alternatives =>
    if areSilent alternatives then [path] else choiceRests path alternatives

/-- The rests that the tokens of a glob can leave of some paths. -/
def rests (paths : List (List UInt8)) : List Token → List (List UInt8)
  | [] => paths
  | token :: tokens => rests (paths.flatMap fun path => tokenRests path token).eraseDups tokens

/-- The rests that one of some globs can leave of a path; those that say nothing
are passed over. -/
def choiceRests (path : List UInt8) : List (List Token) → List (List UInt8)
  | [] => []
  | tokens :: others =>
    (if isSilent tokens then [] else rests [path] tokens) ++ choiceRests path others

end

/-- **Whether a glob matches a path.**  Two stars alone match every path. -/
def matchesPath (glob : Glob) (path : List UInt8) : Bool :=
  match glob with
  | [.leading] => true
  | _ => (rests [path] glob).contains []

end Glob

end ScopeLint
