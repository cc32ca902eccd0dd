import InfraSmells.Terraform.Lexer
import InfraSmells.Terraform.Template

/-!
# From tokens to syntax

A grammar read from left to right. Newlines end attributes and separate the items of objects; in
parentheses, brackets and the values of templates they mean nothing, so every reader takes along
whether newlines count, and gives the tokens that are left. `parse?` reads a whole source, and fails on the first token that does not fit.
-/

namespace InfraSmells.Terraform

/-- The tokens a grammar sees: no comments, but the newline that ends a comment. -/
def significant : List Token → List Token
  | [] => []
  | t :: ts =>
    if t.kind = .comment then
      if Text.endsWith t.text "\n" then { t with kind := .newline, text := "\n" } :: significant ts
      else significant ts
    else t :: significant ts

/-- The tokens from the next one on: newlines are passed over unless they count. -/
def upcoming (newlines : Bool) (ts : List Token) : List Token :=
  if newlines then ts else ts.dropWhile (·.kind == .newline)

/-- Reads a mark. -/
def expect (newlines : Bool) (m : Mark) (ts : List Token) : Option (Token × List Token) :=
  match upcoming newlines ts with
  | t :: rest => if t.kind = .mark m then some (t, rest) else none
  | [] => none

/-- Reads a name. -/
def expectName (newlines : Bool) (ts : List Token) : Option (Token × List Token) :=
  match upcoming newlines ts with
  | t :: rest => if t.kind = .name then some (t, rest) else none
  | [] => none

/-- Reads a given name. -/
def expectWord (newlines : Bool) (word : String) (ts : List Token) : Option (Token × List Token) := do
  let (t, rest) ← expectName newlines ts
  if t.text = word then some (t, rest) else none

/-- Is a mark the next token? -/
def isNext (newlines : Bool) (m : Mark) (ts : List Token) : Bool :=
  (expect newlines m ts).isSome

/-- The operators on two values by their marks, those that bind least first. -/
def levels : List (Mark → Option BinaryOp) := [
  fun | .either => some .or | _ => none,
  fun | .both => some .and | _ => none,
  fun | .equalTo => some .equal | .notEqualTo => some .notEqual | _ => none,
  fun
    | .greater => some .greater
    | .atLeast => some .greaterEqual
    | .less => some .less
    | .atMost => some .lessEqual
    | _ => none,
  fun | .plus => some .sum | .minus => some .subtract | _ => none,
  fun | .star => some .multiply | .slash => some .divide | .percent => some .modulo | _ => none]

/-- The operator of a level that is the next token. -/
def operator? (newlines : Bool) (level : Mark → Option BinaryOp) (ts : List Token) :
    Option (BinaryOp × List Token) :=
  match upcoming newlines ts with
  | t :: rest =>
    match t.kind with
    | .mark m => (level m).map fun op => (op, rest)
    | _ => none
  | [] => none

/-- The term of a bare name. -/
def termOfName (t : Token) : Term :=
  match t.text with
  | "true" => .boolean t.range true
  | "false" => .boolean t.range false
  | "null" => .null t.range
  | name => .bare t.range name

/-- Reads the steps behind an attribute-only splat, with what is accessed so far. -/
def splatSteps (newlines : Bool) : Nat → Term → List Token → Option (Term × List Token)
  | 0, _, _ => none
  | fuel + 1, each, ts =>
    match expect newlines .dot ts with
    | none => some (each, ts)
    | some (_, rest) =>
      match upcoming newlines rest with
      | ⟨.name, name, r⟩ :: rest => splatSteps newlines fuel (.access (each.range.to r) each name) rest
      | ⟨.number, text, r⟩ :: rest => do
        if Text.contains text "." then none
        let n ← Binary.ofText? text
        splatSteps newlines fuel (.index (each.range.to r) each (.number r n)) rest
      | _ => none

/-- Reads the rest of the name of a function: parts behind double colons. -/
def functionName (newlines : Bool) : Nat → String → List Token → Option (String × List Token)
  | 0, _, _ => none
  | fuel + 1, name, ts =>
    match expect newlines .doubleColon ts with
    | none => some (name, ts)
    | some (_, rest) => do
      let (t, rest) ← expectName newlines rest
      functionName newlines fuel (name ++ "::" ++ t.text) rest

/-- Reads the names that a repetition declares, and the word behind them. -/
def loopNames (ts : List Token) : Option (LoopNames × List Token) := do
  let (first, ts) ← expectName false ts
  let ((names, ts) : LoopNames × List Token) ← match expect false .comma ts with
    | some (_, rest) => (expectName false rest).map fun (second, ts) =>
      (⟨some first.text, second.text⟩, ts)
    | none => some (⟨none, first.text⟩, ts)
  let (_, ts) ← expectWord false "in" ts
  some (names, ts)

/-- The end of a value or directive, and whether it removes the white space behind it. -/
def sequenceEnd (ts : List Token) : Option ((Token × Bool) × List Token) :=
  match upcoming false ts with
  | t :: rest =>
    match t.kind with
    | .closeSequence trim => some ((t, trim), rest)
    | _ => none
  | [] => none

/-- Does the next token begin a value or directive that removes the white space before it? -/
def trimsBefore : List Token → Bool
  | t :: _ => t.kind = .openValue true || t.kind = .openDirective true
  | [] => false

mutual

/-- Reads a term. -/
def expression : Nat → Bool → List Token → Option (Term × List Token)
  | 0, _, _ => none
  | fuel + 1, newlines, ts => do
    let (condition, ts) ← operation fuel newlines levels ts
    match expect newlines .question ts with
    | none => some (condition, ts)
    | some (_, ts) =>
      let (yes, ts) ← expression fuel newlines ts
      let (_, ts) ← expect newlines .colon ts
      let (no, ts) ← expression fuel newlines ts
      some (.conditional (condition.range.to no.range) condition yes no, ts)

/-- Reads operations of the given levels. -/
def operation : Nat → Bool → List (Mark → Option BinaryOp) → List Token → Option (Term × List Token)
  | 0, _, _, _ => none
  | fuel + 1, newlines, [], ts => traversed fuel newlines ts
  | fuel + 1, newlines, level :: higher, ts => do
    let (left, ts) ← operation fuel newlines higher ts
    operationRest fuel newlines level higher left ts

/-- Reads further operations of one level, from left to right. -/
def operationRest : Nat → Bool → (Mark → Option BinaryOp) → List (Mark → Option BinaryOp) → Term →
    List Token → Option (Term × List Token)
  | 0, _, _, _, _, _ => none
  | fuel + 1, newlines, level, higher, left, ts =>
    match operator? newlines level ts with
    | none => some (left, ts)
    | some (op, ts) => do
      let (right, ts) ← operation fuel newlines higher ts
      operationRest fuel newlines level higher (.binary (left.range.to right.range) op left right) ts

/-- Reads a simple term and what is accessed in it. -/
def traversed : Nat → Bool → List Token → Option (Term × List Token)
  | 0, _, _ => none
  | fuel + 1, newlines, ts => do
    let (t, ts) ← simple fuel newlines ts
    accesses fuel newlines t ts

/-- Reads what is accessed in a term. -/
def accesses : Nat → Bool → Term → List Token → Option (Term × List Token)
  | 0, _, _, _ => none
  | fuel + 1, newlines, source, ts =>
    match upcoming newlines ts with
    | ⟨.mark .dot, _, _⟩ :: ts =>
      match upcoming newlines ts with
      | ⟨.name, name, r⟩ :: ts =>
        accesses fuel newlines (.access (source.range.to r) source name) ts
      | ⟨.number, text, r⟩ :: ts => do
        if Text.contains text "." then none
        let n ← Binary.ofText? text
        accesses fuel newlines (.index (source.range.to r) source (.number r n)) ts
      | ⟨.mark .star, _, r⟩ :: ts => do
        let (each, ts) ← splatSteps newlines fuel (.item r) ts
        accesses fuel newlines (.splat (source.range.to each.range) source each) ts
      | _ => none
    | ⟨.mark .openBracket, _, opening⟩ :: ts =>
      match expect newlines .star ts with
      | some (_, ts) => do
        let (close, ts) ← expect newlines .closeBracket ts
        let (each, ts) ← accesses fuel newlines (.item (opening.to close.range)) ts
        accesses fuel newlines (.splat (source.range.to each.range) source each) ts
      | none => do
        let (key, ts) ← expression fuel false ts
        let (close, ts) ← expect false .closeBracket ts
        accesses fuel newlines (.index (source.range.to close.range) source key) ts
    | _ => some (source, ts)

/-- Reads a simple term. -/
def simple : Nat → Bool → List Token → Option (Term × List Token)
  | 0, _, _ => none
  | fuel + 1, newlines, ts =>
    match upcoming newlines ts with
    | ⟨.mark .openParen, _, opening⟩ :: ts => do
      let (inner, ts) ← expression fuel false ts
      let (close, ts) ← expect false .closeParen ts
      some (.parens (opening.to close.range) inner, ts)
    | ⟨.number, text, r⟩ :: ts => do
      let n ← Binary.ofText? text
      some (.number r n, ts)
    | ⟨.name, text, r⟩ :: ts =>
      if isNext newlines .openParen ts || isNext newlines .doubleColon ts then do
        let (name, ts) ← functionName newlines fuel text ts
        let (_, ts) ← expect newlines .openParen ts
        let ((args, close), ts) ← arguments fuel ts
        some (.call (r.to close.range) name args, ts)
      else some (termOfName ⟨.name, text, r⟩, ts)
    | ⟨.openQuote, _, opening⟩ :: ts => do
      let ((parts, close), ts) ← templateParts fuel .closeQuote false ts
      let parts := if parts.isEmpty then [.literal close.range.front ""] else parts
      let t ← template? (opening.to close.range) false parts
      some (t, ts)
    | ⟨.openHeredoc isFlush, _, opening⟩ :: ts => do
      let ((parts, close), ts) ← templateParts fuel .closeHeredoc false ts
      let parts := if parts.isEmpty then [.literal close.range.front ""] else parts
      let t ← template? (opening.to close.range) isFlush parts
      some (t, ts)
    | ⟨.mark .minus, _, opening⟩ :: ts => do
      let (t, ts) ← traversed fuel newlines ts
      some (.unary (opening.to t.range) .minus t, ts)
    | ⟨.mark .bang, _, opening⟩ :: ts => do
      let (t, ts) ← traversed fuel newlines ts
      some (.unary (opening.to t.range) .not t, ts)
    | ⟨.mark .openBracket, _, opening⟩ :: ts =>
      match expectWord false "for" ts with
      | some (_, ts) => comprehension fuel opening false ts
      | none => do
        let ((items, close), ts) ← tupleItems fuel ts
        some (.tuple (opening.to close.range) items, ts)
    | ⟨.mark .openBrace, _, opening⟩ :: ts =>
      match expectWord false "for" ts with
      | some (_, ts) => comprehension fuel opening true ts
      | none => do
        let ((items, close), ts) ← objectItems fuel ts
        some (.object (opening.to close.range) items, ts)
    | _ => none

/-- Reads the arguments of a call, up to the closing parenthesis. The last may be expanded. -/
def arguments : Nat → List Token → Option ((List Term × Token) × List Token)
  | 0, _ => none
  | fuel + 1, ts =>
    match expect false .closeParen ts with
    | some (close, ts) => some (([], close), ts)
    | none => do
      let (arg, ts) ← expression fuel false ts
      match upcoming false ts with
      | ⟨.mark .comma, _, _⟩ :: ts =>
        let ((args, close), ts) ← arguments fuel ts
        some ((arg :: args, close), ts)
      | ⟨.mark .ellipsis, _, _⟩ :: ts =>
        let (close, ts) ← expect false .closeParen ts
        some (([arg], close), ts)
      | ts =>
        let (close, ts) ← expect false .closeParen ts
        some (([arg], close), ts)

/-- Reads the items of a tuple, up to the closing bracket. -/
def tupleItems : Nat → List Token → Option ((List Term × Token) × List Token)
  | 0, _ => none
  | fuel + 1, ts =>
    match expect false .closeBracket ts with
    | some (close, ts) => some (([], close), ts)
    | none => do
      let (item, ts) ← expression fuel false ts
      match expect false .comma ts with
      | some (_, ts) =>
        let ((items, close), ts) ← tupleItems fuel ts
        some ((item :: items, close), ts)
      | none =>
        let (close, ts) ← expect false .closeBracket ts
        some (([item], close), ts)

/-- Reads the items of an object, up to the closing brace. Commas or newlines separate them. -/
def objectItems : Nat → List Token → Option ((List ObjectItem × Token) × List Token)
  | 0, _ => none
  | fuel + 1, ts =>
    match ts with
    | ⟨.newline, _, _⟩ :: ts => objectItems fuel ts
    | ⟨.mark .closeBrace, text, r⟩ :: ts => some (([], ⟨.mark .closeBrace, text, r⟩), ts)
    | ts => do
      let inParens := isNext true .openParen ts
      let (key, ts) ← expression fuel true ts
      let (_, ts) ← (expect true .equal ts <|> expect true .colon ts)
      let (value, ts) ← expression fuel true ts
      match ts with
      | ⟨.mark .closeBrace, text, r⟩ :: ts =>
        some (([⟨key, inParens, value⟩], ⟨.mark .closeBrace, text, r⟩), ts)
      | ⟨.mark .comma, _, _⟩ :: ts | ⟨.newline, _, _⟩ :: ts =>
        let ((items, close), ts) ← objectItems fuel ts
        some ((⟨key, inParens, value⟩ :: items, close), ts)
      | _ => none

/-- Reads a comprehension behind its first word. One that makes an object has a key, one that makes a
tuple has neither key nor grouping. -/
def comprehension : Nat → Range → Bool → List Token → Option (Term × List Token)
  | 0, _, _, _ => none
  | fuel + 1, opening, isObject, ts => do
    let (names, ts) ← loopNames ts
    let (source, ts) ← expression fuel false ts
    let (_, ts) ← expect false .colon ts
    let (first, ts) ← expression fuel false ts
    let ((key, value, ts) : Option Term × Term × List Token) ← match expect false .arrow ts with
      | some (_, ts) => do
        let (second, ts) ← expression fuel false ts
        some (some first, second, ts)
      | none => some (none, first, ts)
    let (grouped, ts) := match expect false .ellipsis ts with
      | some (_, ts) => (true, ts)
      | none => (false, ts)
    let ((condition, ts) : Option Term × List Token) ← match expectWord false "if" ts with
      | some (_, ts) => do
        let (condition, ts) ← expression fuel false ts
        some (some condition, ts)
      | none => some (none, ts)
    let (close, ts) ← expect false (if isObject then .closeBrace else .closeBracket) ts
    if isObject && key.isNone || !isObject && (key.isSome || grouped) then none
    some (.comprehension (opening.to close.range) names source key value condition grouped, ts)

/-- Reads the parts of a template, up to the token that closes it. `trim` if white space at the front
is removed. -/
def templateParts : Nat → Kind → Bool → List Token → Option ((List Part × Token) × List Token)
  | 0, _, _, _ => none
  | fuel + 1, closer, trim, ts =>
    match ts with
    | [] => none
    | ⟨kind, text, r⟩ :: ts =>
      if kind = closer then some (([], ⟨kind, text, r⟩), ts)
      else
        match kind with
        | .literal quoted => do
          let text ← literalText? quoted text
          let text := if trim then Text.trimStart Text.isBlank text else text
          let text := if trimsBefore ts then Text.trimEnd Text.isBlank text else text
          let ((parts, close), ts) ← templateParts fuel closer false ts
          some ((.literal r text :: parts, close), ts)
        | .openValue _ => do
          let (t, ts) ← expression fuel false ts
          let ((stop, trim), ts) ← sequenceEnd ts
          let ((parts, close), ts) ← templateParts fuel closer trim ts
          some ((.value (r.to stop.range) t :: parts, close), ts)
        | .openDirective _ => do
          let (part, ts) ← directive fuel ts
          let ((stop, trim), ts) ← sequenceEnd ts
          let ((parts, close), ts) ← templateParts fuel closer trim ts
          some ((part (r.to stop.range) :: parts, close), ts)
        | _ => none

/-- Reads a directive of a template. -/
def directive : Nat → List Token → Option ((Range → Part) × List Token)
  | 0, _ => none
  | fuel + 1, ts => do
    let (word, ts) ← expectName false ts
    match word.text with
    | "if" =>
      let (condition, ts) ← expression fuel false ts
      some ((.whether · condition), ts)
    | "else" => some (.otherwise, ts)
    | "endif" => some (.endWhether, ts)
    | "for" =>
      let (names, ts) ← loopNames ts
      let (source, ts) ← expression fuel false ts
      some ((.forEach · names source), ts)
    | "endfor" => some (.endForEach, ts)
    | _ => none

end

/-- Reads the rest of a quoted label. -/
def labelText : Nat → String → List Token → Option ((String × Token) × List Token)
  | 0, _, _ => none
  | fuel + 1, label, ts =>
    match ts with
    | t :: ts =>
      match t.kind with
      | .closeQuote => some ((label, t), ts)
      | .literal quoted => do
        let text ← literalText? quoted t.text
        labelText fuel (label ++ text) ts
      | _ => none
    | [] => none

/-- Reads the labels of a block, up to its opening brace. -/
def labels : Nat → List Token → Option ((List (String × Range)) × List Token)
  | 0, _ => none
  | fuel + 1, ts =>
    match ts with
    | t :: ts =>
      match t.kind with
      | .mark .openBrace => some ([], ts)
      | .name => do
        let (more, ts) ← labels fuel ts
        some ((t.text, t.range) :: more, ts)
      | .openQuote => do
        let ((label, close), ts) ← labelText fuel "" ts
        let (more, ts) ← labels fuel ts
        some ((label, t.range.to close.range) :: more, ts)
      | _ => none
    | [] => none

/-- Reads an attribute behind its name and the equals sign. -/
def attributeOf (fuel : Nat) (name : Token) (ts : List Token) : Option (Attribute × List Token) := do
  let (value, ts) ← expression fuel true ts
  some (⟨name.text, value, name.range.to value.range⟩, ts)

/-- Reads the end of a line or of the source. -/
def lineEnd (ts : List Token) : Option (List Token) :=
  match ts with
  | ⟨.newline, _, _⟩ :: rest => some rest
  | ⟨.eof, _, _⟩ :: _ => some ts
  | _ => none

mutual

/-- Reads the attributes and blocks of a body, up to the token that closes it. No two attributes have
one name. -/
def bodyItems (limit : Nat) : Nat → Kind → List Token → Option ((Body × Token) × List Token)
  | 0, _, _ => none
  | fuel + 1, closer, ts =>
    match ts with
    | [] => none
    | t :: ts =>
      if t.kind = closer then some ((.mk [] [], t), ts)
      else if t.kind = .newline then bodyItems limit fuel closer ts
      else if t.kind ≠ .name then none
      else
        match expect true .equal ts with
        | some (_, ts) => do
          let (a, ts) ← attributeOf limit t ts
          let ts ← lineEnd ts
          let ((.mk attributes sections, close), ts) ← bodyItems limit fuel closer ts
          if attributes.any (·.name == a.name) then none
          some ((.mk (a :: attributes) sections, close), ts)
        | none => do
          let (s, ts) ← sectionOf limit fuel t ts
          let ((.mk attributes sections, close), ts) ← bodyItems limit fuel closer ts
          some ((.mk attributes (s :: sections), close), ts)

/-- Reads a block behind its type. A block on one line holds at most one attribute. -/
def sectionOf (limit : Nat) : Nat → Token → List Token → Option (Section × List Token)
  | 0, _, _ => none
  | fuel + 1, type, ts => do
    let (labels, ts) ← labels limit ts
    let ((body, close), ts) ← match ts with
      | ⟨.name, text, r⟩ :: ts => do
        let (_, ts) ← expect true .equal ts
        let (a, ts) ← attributeOf limit ⟨.name, text, r⟩ ts
        let (close, ts) ← expect true .closeBrace ts
        some ((.mk [a] [], close), ts)
      | ts => bodyItems limit fuel (.mark .closeBrace) ts
    let ts ← lineEnd ts
    some (.mk type.text labels type.range (type.range.to close.range) body, ts)

end

/-- The syntax of a source, if it has one. The depth of any reading is bounded by a multiple of the
number of tokens. -/
def parse? (ts : List Token) : Option Source := do
  if ts.any (·.kind == .invalid) then none
  let ts := significant ts
  let limit := 16 * (ts.length + 1)
  let first ← ts.head?
  let ((body, last), _) ← bodyItems limit limit .eof ts
  some ⟨body, first.range.to last.range⟩

end InfraSmells.Terraform
