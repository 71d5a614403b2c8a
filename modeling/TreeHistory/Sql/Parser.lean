import TreeHistory.Sql.Lexer
import TreeHistory.Sql.Common
import TreeHistory.Sql.Window

/-!
# Parsing SQL

A recursive-descent parser from tokens to statements; every recursive function takes fuel, sixteen
steps per token. Operators bind, loosest first: `OR`; `AND`; `NOT`; equality, `IS`, `IN`, `LIKE`,
`BETWEEN`; comparisons; bit operators; `+`, `-`; `*`, `/`, `%`; `||`; `COLLATE`; prefix operators.
A script is read one statement at a time (`statementAt`).
-/

namespace TreeHistory
namespace Sql
namespace Parse

/-- The tokens being read and the text they came from. -/
structure Cursor where
  tokens : Array Token
  source : Array Char

/-- A parser: reads the cursor, moves a position through its tokens, and may fail. -/
abbrev Parser := ReaderT Cursor (StateT Nat (Except String))

/-- The token at the position. -/
def current : Parser (Option Token) := do
  let cursor ← read
  let pos ← get
  pure cursor.tokens[pos]?

/-- The token `k` places after the position. -/
def ahead (k : Nat) : Parser (Option Token) := do
  let cursor ← read
  let pos ← get
  pure cursor.tokens[pos + k]?

/-- Moves past one token. -/
def bump : Parser Unit := modify (· + 1)

/-- Whether the token `k` places ahead is the keyword `word`. -/
def keywordAhead (k : Nat) (word : String) : Parser Bool := do
  pure (((← ahead k).map (·.isKeyword word)).getD false)

/-- Whether the current token is the keyword `word`. -/
def atKeyword (word : String) : Parser Bool := keywordAhead 0 word

/-- Whether the token `k` places ahead is the operator `op`. -/
def symbolAhead (k : Nat) (op : String) : Parser Bool := do
  pure (((← ahead k).map (·.isSymbol op)).getD false)

/-- Whether the current token is the operator `op`. -/
def atSymbol (op : String) : Parser Bool := symbolAhead 0 op

/-- Moves past the keyword `word` if it is next. -/
def eatKeyword (word : String) : Parser Bool := do
  if ← atKeyword word then bump; pure true else pure false

/-- Moves past the operator `op` if it is next. -/
def eatSymbol (op : String) : Parser Bool := do
  if ← atSymbol op then bump; pure true else pure false

/-- Moves past the keyword `word`, which must be next. -/
def expectKeyword (word : String) : Parser Unit := do
  unless ← eatKeyword word do throw ("expected " ++ word)

/-- Moves past the operator `op`, which must be next. -/
def expectSymbol (op : String) : Parser Unit := do
  unless ← eatSymbol op do throw ("expected " ++ op)

/-- Whether the position is past the last token. -/
def atEnd : Parser Bool := do
  pure (← current).isNone

/-- The text of the source between two character offsets. -/
def slice (start stop : Nat) : Parser String := do
  let cursor ← read
  pure (String.ofList (cursor.source.extract start stop).toList)

/-- The character offset where the token at a position starts, or the end of the source. -/
def startOf (pos : Nat) : Parser Nat := do
  let cursor ← read
  pure ((cursor.tokens[pos]?.map (·.start)).getD cursor.source.size)

/-- The character offset where the token before a position stops. -/
def stopBefore (pos : Nat) : Parser Nat := do
  let cursor ← read
  match pos with
  | 0 => pure 0
  | p + 1 => pure ((cursor.tokens[p]?.map (·.stop)).getD cursor.source.size)

/-- The source text of the tokens from one position up to another. -/
def textFrom (first afterLast : Nat) : Parser String := do
  slice (← startOf first) (← stopBefore afterLast)

/-- Words that cannot be an alias or a column name. -/
def reservedWords : List String :=
  ["ALL", "AND", "AS", "BETWEEN", "BY", "CASE", "CHECK", "COLLATE", "COMMIT", "CONSTRAINT",
   "CREATE", "CROSS", "DEFAULT", "DELETE", "DISTINCT", "DROP", "ELSE", "END", "ESCAPE", "EXCEPT",
   "EXISTS", "FOREIGN", "FROM", "FULL", "GLOB", "GROUP", "HAVING", "IN", "INDEX", "INDEXED",
   "INNER", "INSERT", "INTERSECT", "INTO", "IS", "ISNULL", "JOIN", "LEFT", "LIKE", "LIMIT",
   "MATCH", "NATURAL", "NOT", "NOTNULL", "NULL", "OFFSET", "ON", "OR", "ORDER", "OUTER",
   "PRIMARY", "REFERENCES", "REGEXP", "RETURNING", "RIGHT", "SELECT", "SET", "TABLE", "THEN",
   "TO", "UNION", "UNIQUE", "UPDATE", "USING", "VALUES", "WHEN", "WHERE", "WINDOW"]

/-- The name a token stands for, when it can name something. -/
def nameOf? (token : Token) : Option String :=
  match token.kind with
  | .word w => some w
  | .quoted s => some s
  | .bracketed s => some s
  | .string s => some s
  | _ => none

/-- A name. -/
def name : Parser String := do
  match ← current with
  | some token =>
    match nameOf? token with
    | some n => bump; pure n
    | none => throw "expected a name"
  | none => throw "expected a name"

/-- A name that may be qualified by a schema, which is dropped. -/
def qualifiedName : Parser String := do
  let first ← name
  if ← eatSymbol "." then name else pure first

/-- An alias after `AS`, or a name that is not a keyword. -/
def alias? : Parser (Option String) := do
  if ← eatKeyword "AS" then return some (← name)
  match ← current with
  | some token =>
    match token.kind with
    | .word w => if reservedWords.contains w.toUpper then pure none else do bump; pure (some w)
    | .quoted s => bump; pure (some s)
    | .bracketed s => bump; pure (some s)
    | .string s => bump; pure (some s)
    | _ => pure none
  | none => pure none

/-- The binary operators of a precedence level, as keywords or operator symbols. -/
def binaryTable : Nat → List (String × BinaryOp)
  | 0 => [("OR", .or)]
  | 1 => [("AND", .and)]
  | 4 => [("<", .lt), ("<=", .le), (">", .gt), (">=", .ge)]
  | 5 => [("&", .bit .and), ("|", .bit .or), ("<<", .bit .shiftLeft), (">>", .bit .shiftRight)]
  | 6 => [("+", .arith .add), ("-", .arith .sub)]
  | 7 => [("*", .arith .mul), ("/", .arith .div), ("%", .arith .rem)]
  | 8 => [("||", .concat)]
  | _ => []

/-- The binary operator of a level the current token is. -/
def binaryAt (level : Nat) : Parser (Option BinaryOp) := do
  match ← current with
  | some token =>
    pure ((binaryTable level).find? (fun entry =>
      token.isKeyword entry.1 || token.isSymbol entry.1) |>.map (·.2))
  | none => pure none

/-- The parameter number of a parameter token: `?NNN` gives `NNN`, others 0. -/
def paramIndex (text : String) : Nat :=
  match text.toList with
  | '?' :: digits => digits.foldl (fun n c => n * 10 + (c.toNat - 48)) 0
  | _ => 0

/-- A type name: words, then an optional parenthesized size. Gives its text. -/
def typeWords : Nat → Parser Unit
  | 0 => pure ()
  | fuel + 1 => do
    match ← current with
    | some token =>
      match token.kind with
      | .word w =>
        let stop := ["CONSTRAINT", "PRIMARY", "NOT", "NULL", "UNIQUE", "CHECK", "DEFAULT",
          "COLLATE", "REFERENCES", "AS", "GENERATED", "ON"].contains w.toUpper
        if stop then pure () else do bump; typeWords fuel
      | .string _ => bump; typeWords fuel
      | _ => pure ()
    | none => pure ()

/-- A signed number inside the size of a type. -/
def signedNumber : Parser Unit := do
  let _ ← eatSymbol "-" <||> eatSymbol "+"
  match ← current with
  | some token =>
    match token.kind with
    | .integer _ | .float _ => bump
    | _ => throw "expected a number"
  | none => throw "expected a number"

/-- A declared type, possibly empty, as written. -/
def typeName : Parser String := do
  let first ← get
  let cursor ← read
  typeWords cursor.tokens.size
  if (← get) > first then
    if ← eatSymbol "(" then
      signedNumber
      if ← eatSymbol "," then signedNumber
      expectSymbol ")"
    textFrom first (← get)
  else pure ""

/-- Whether a query starts here: `SELECT`, `VALUES` or `WITH`. -/
def atQuery : Parser Bool := do
  pure ((← atKeyword "SELECT") || (← atKeyword "VALUES") || (← atKeyword "WITH"))

/-- Whether an expression is a constant: literals and parameters under operators. -/
def isConstant : Nat → Expr → Bool
  | 0, _ => false
  | fuel + 1, e =>
    let go := isConstant fuel
    match e with
    | .literal _ | .integer _ | .float _ | .param _ => true
    | .unary _ x | .isNull x _ | .cast x _ | .collate x _ => go x
    | .binary _ l r => go l && go r
    | .between x l h _ => go x && go l && go h
    | .inList x items _ => go x && items.all go
    | .pattern _ x p escape _ => go x && go p && (escape.map go).getD true
    | .case base branches otherwise =>
      (base.map go).getD true && branches.all (fun (w, t) => go w && go t) &&
        (otherwise.map go).getD true
    | .row items => items.all go
    | _ => false

/-- The offset of a frame bound: the expression when constant, else `NULL`, which no frame accepts. -/
def frameOffset (e : Expr) : Expr :=
  if isConstant 10000 e then e else .literal .null

/-- Checks a frame's ends: it may not end before the row when it starts at it, nor at or before the
row when it starts after it. -/
def checkFrame (start finish : BoundKind) : Parser Unit :=
  if (start == .currentRow && finish == .preceding) ||
      (start == .following && (finish == .preceding || finish == .currentRow)) then
    throw "unsupported frame specification"
  else pure ()

mutual

/-- An expression. -/
def expr : Nat → Parser Expr
  | 0 => throw "expression too deep"
  | fuel + 1 => level fuel 0

/-- An expression whose operators bind at least as tightly as `level`. -/
def level : Nat → Nat → Parser Expr
  | 0, _ => throw "expression too deep"
  | fuel + 1, n =>
    if n = 2 then do
      if (← atKeyword "NOT") then
        bump
        return .unary .not (← level fuel 2)
      level fuel 3
    else if n = 3 then do
      let left ← level fuel 4
      equalityTail fuel left
    else if n = 9 then do
      let operand ← level fuel 10
      collateTail fuel operand
    else if n = 10 then do
      if ← eatSymbol "-" then return .unary .neg (← level fuel 10)
      if ← eatSymbol "+" then return .unary .pos (← level fuel 10)
      if ← eatSymbol "~" then return .unary .bitNot (← level fuel 10)
      primary fuel
    else if n > 10 then primary fuel
    else do
      let left ← level fuel (n + 1)
      binaryTail fuel n left

/-- The rest of a chain of left-associative operators of one level. -/
def binaryTail : Nat → Nat → Expr → Parser Expr
  | 0, _, _ => throw "expression too deep"
  | fuel + 1, n, left => do
    if n = 8 then
      for arrow in ["->>", "->"] do
        if ← eatSymbol arrow then
          let right ← level fuel (n + 1)
          return ← binaryTail fuel n (.call arrow [left, right] false false)
    match ← binaryAt n with
    | some op =>
      bump
      let right ← level fuel (n + 1)
      binaryTail fuel n (.binary op left right)
    | none => pure left

/-- The rest of a chain of `COLLATE` clauses. -/
def collateTail : Nat → Expr → Parser Expr
  | 0, _ => throw "expression too deep"
  | fuel + 1, operand => do
    if ← eatKeyword "COLLATE" then
      let collation ← name
      collateTail fuel (.collate operand collation)
    else pure operand

/-- The rest of a chain of comparisons, memberships, patterns and null tests. -/
def equalityTail : Nat → Expr → Parser Expr
  | 0, _ => throw "expression too deep"
  | fuel + 1, left => do
    if (← eatSymbol "=") || (← eatSymbol "==") then
      let right ← level fuel 4
      return ← equalityTail fuel (.binary .eq left right)
    if (← eatSymbol "!=") || (← eatSymbol "<>") then
      let right ← level fuel 4
      return ← equalityTail fuel (.binary .ne left right)
    if ← eatKeyword "ISNULL" then return ← equalityTail fuel (.isNull left false)
    if ← eatKeyword "NOTNULL" then return ← equalityTail fuel (.isNull left true)
    if ← eatKeyword "IS" then
      let negated ← eatKeyword "NOT"
      let negated ← if ← eatKeyword "DISTINCT" then do expectKeyword "FROM"; pure (!negated)
        else pure negated
      let right ← level fuel 4
      return ← equalityTail fuel (.binary (if negated then .isNot else .is) left right)
    let negated ← if (← atKeyword "NOT") && ((← keywordAhead 1 "IN") || (← keywordAhead 1 "LIKE")
        || (← keywordAhead 1 "GLOB") || (← keywordAhead 1 "BETWEEN") || (← keywordAhead 1 "NULL")
        || (← keywordAhead 1 "MATCH") || (← keywordAhead 1 "REGEXP")) then do bump; pure true
      else pure false
    if negated && (← eatKeyword "NULL") then return ← equalityTail fuel (.isNull left true)
    if ← eatKeyword "BETWEEN" then
      let low ← level fuel 4
      expectKeyword "AND"
      let high ← level fuel 4
      return ← equalityTail fuel (.between left low high negated)
    if (← atKeyword "LIKE") || (← atKeyword "GLOB") then
      let op : PatternOp := if ← atKeyword "LIKE" then .like else .glob
      bump
      let pattern ← level fuel 4
      let escape ← if ← eatKeyword "ESCAPE" then some <$> level fuel 4 else pure none
      return ← equalityTail fuel (.pattern op left pattern escape negated)
    if (← atKeyword "MATCH") || (← atKeyword "REGEXP") then
      throw "no such function: MATCH"
    if ← eatKeyword "IN" then
      if ← eatSymbol "(" then
        if ← eatSymbol ")" then
          return ← equalityTail fuel (.literal (.int (if negated then 1 else 0)))
        if ← atQuery then
          let q ← query fuel
          expectSymbol ")"
          return ← equalityTail fuel (.inQuery left q negated)
        let items ← exprList fuel
        expectSymbol ")"
        if let .row lefts := left then
          let rows ← items.mapM fun item => do
            let values := match item with
              | .row values => values
              | other => [other]
            if values.length ≠ lefts.length then
              throw ("IN(...) element has " ++ toString values.length ++ " term" ++
                (if values.length > 1 then "s" else "") ++ " - expected " ++
                toString lefts.length)
            pure values
          return ← equalityTail fuel (.inQuery left (.values rows) negated)
        return ← equalityTail fuel (.inList left items negated)
      let table ← qualifiedName
      let q : Query := .select false [.all] (some (.table table none)) none [] none []
      return ← equalityTail fuel (.inQuery left q negated)
    if negated then throw "syntax error after NOT"
    pure left

/-- Expressions separated by commas. -/
def exprList : Nat → Parser (List Expr)
  | 0 => throw "expression too deep"
  | fuel + 1 => do
    let first ← expr fuel
    if ← eatSymbol "," then return first :: (← exprList fuel)
    pure [first]

/-- The `WHEN ... THEN ...` branches of a `CASE`. -/
def caseBranches : Nat → Parser (List (Expr × Expr))
  | 0 => throw "expression too deep"
  | fuel + 1 => do
    if ← eatKeyword "WHEN" then
      let condition ← expr fuel
      expectKeyword "THEN"
      let result ← expr fuel
      return (condition, result) :: (← caseBranches fuel)
    pure []

/-- An operand: a literal, parentheses, a column, a call, `CAST`, `CASE`, `EXISTS` or `RAISE`. -/
def primary : Nat → Parser Expr
  | 0 => throw "expression too deep"
  | fuel + 1 => do
    match ← current with
    | none => throw "incomplete input"
    | some token =>
      match token.kind with
      | .integer text => bump; pure (.integer text)
      | .float text => bump; pure (.float text)
      | .string s => bump; pure (.literal (.text s))
      | .blob bytes => bump; pure (.literal (.blob bytes))
      | .param text => bump; pure (.param (paramIndex text))
      | .symbol "(" =>
        bump
        if ← atQuery then
          let q ← query fuel
          expectSymbol ")"
          return .subquery q
        let inner ← expr fuel
        if ← eatSymbol "," then
          let rest ← exprList fuel
          expectSymbol ")"
          return .row (inner :: rest)
        expectSymbol ")"
        pure inner
      | .quoted s =>
        bump
        if ← eatSymbol "." then return .column (some s) (← name) false
        pure (.column none s true)
      | .bracketed s =>
        bump
        if ← eatSymbol "." then return .column (some s) (← name) false
        pure (.column none s false)
      | .word w =>
        let upper := w.toUpper
        if upper = "NULL" then bump; return .literal .null
        if upper = "CASE" then
          bump
          let operand ← if ← atKeyword "WHEN" then pure none else some <$> expr fuel
          let branches ← caseBranches fuel
          if branches.isEmpty then throw "expected WHEN"
          let otherwise ← if ← eatKeyword "ELSE" then some <$> expr fuel else pure none
          expectKeyword "END"
          return .case operand branches otherwise
        if upper = "CAST" then
          bump
          expectSymbol "("
          let operand ← expr fuel
          expectKeyword "AS"
          let type ← typeName
          expectSymbol ")"
          return .cast operand type
        if upper = "EXISTS" then
          bump
          expectSymbol "("
          let q ← query fuel
          expectSymbol ")"
          return .exists q
        if upper = "RAISE" then
          bump
          expectSymbol "("
          if ← eatKeyword "IGNORE" then
            expectSymbol ")"
            return .raise .ignore ""
          let action : RaiseAction ← do
            if ← eatKeyword "ROLLBACK" then pure .rollback
            else if ← eatKeyword "ABORT" then pure .abort
            else if ← eatKeyword "FAIL" then pure .fail
            else throw "expected a RAISE action"
          expectSymbol ","
          let message ← match ← current with
            | some { kind := .string s, .. } => do bump; pure s
            | _ => throw "expected a message"
          expectSymbol ")"
          return .raise action message
        if upper = "CURRENT_TIMESTAMP" ∨ upper = "CURRENT_DATE" ∨ upper = "CURRENT_TIME" then
          bump
          return .call upper.toLower [] false false
        let callable := ["GLOB", "LIKE", "MATCH", "REGEXP"].contains upper ∧ (← symbolAhead 1 "(")
        if reservedWords.contains upper ∧ ¬callable then throw ("near " ++ w ++ ": syntax error")
        let id ← get
        bump
        if ← eatSymbol "(" then
          if ← eatSymbol "*" then
            expectSymbol ")"
            return ← callTail fuel id w [] false true []
          if ← eatSymbol ")" then return ← callTail fuel id w [] false false []
          let distinct ← eatKeyword "DISTINCT"
          let args ← if (← atKeyword "ORDER") ∨ (← atSymbol ")") then pure [] else exprList fuel
          let orderBy ← if ← eatKeyword "ORDER" then do expectKeyword "BY"; orderTerms fuel
            else pure []
          expectSymbol ")"
          return ← callTail fuel id w args distinct false (if args.isEmpty then [] else orderBy)
        if ← eatSymbol "." then
          let second ← name
          if ← eatSymbol "." then return .column (some second) (← name) false
          return .column (some w) second false
        pure (.column none w false)
      | _ => throw "syntax error"

/-- What follows the arguments of a call: a `FILTER` clause, then an `OVER` clause. -/
def callTail : Nat → Nat → String → List Expr → Bool → Bool → List (Expr × Bool × Option Bool) →
    Parser Expr
  | 0, _, _, _, _, _, _ => throw "expression too deep"
  | fuel + 1, id, name, args, distinct, star, orderBy => do
    let filter ← if ← eatKeyword "FILTER" then do
        expectSymbol "("
        expectKeyword "WHERE"
        let condition ← expr fuel
        expectSymbol ")"
        pure (some condition)
      else pure none
    if ← eatKeyword "OVER" then
      let overClause ← if ← eatSymbol "(" then do
          let w ← windowSpec fuel
          expectSymbol ")"
          pure w
        else do pure { Window.whole with name := some (← Parse.name) }
      if distinct then throw "DISTINCT is not supported for window functions"
      if !orderBy.isEmpty then
        throw ("ORDER BY may not be used with non-aggregate " ++ name ++ "()")
      return .window id name args star filter overClause
    if filter.isNone ∧ orderBy.isEmpty then pure (.call name args distinct star)
    else pure (.clauses (.call name args distinct star) filter orderBy)

/-- A window in parentheses: its base window, partition terms, order terms and frame. -/
def windowSpec : Nat → Parser Window
  | 0 => throw "expression too deep"
  | fuel + 1 => do
    let clauses := ["PARTITION", "ORDER", "RANGE", "ROWS", "GROUPS"]
    let base ← match ← current with
      | some tok =>
        match nameOf? tok with
        | some n => if clauses.any tok.isKeyword then pure none else do bump; pure (some n)
        | none => pure none
      | none => pure none
    let partitionBy ← if ← eatKeyword "PARTITION" then do expectKeyword "BY"; exprList fuel
      else pure []
    let orderBy ← if ← eatKeyword "ORDER" then do expectKeyword "BY"; orderTerms fuel
      else pure []
    let frame ← windowFrame fuel
    pure { name := none, base, partitionBy, orderBy, frame }

/-- The frame of a window, or the default frame when it states none. -/
def windowFrame : Nat → Parser WindowFrame
  | 0 => throw "expression too deep"
  | fuel + 1 => do
    let unit ← if ← eatKeyword "RANGE" then pure (some FrameUnit.range)
      else if ← eatKeyword "ROWS" then pure (some FrameUnit.rows)
      else if ← eatKeyword "GROUPS" then pure (some FrameUnit.groups)
      else pure none
    match unit with
    | none => pure .byDefault
    | some unit =>
      let (start, finish) ← if ← eatKeyword "BETWEEN" then do
          let start ← frameBound fuel true
          expectKeyword "AND"
          pure (start, ← frameBound fuel false)
        else do pure (← frameBound fuel true, ⟨.currentRow, none⟩)
      let exclude ← if ← eatKeyword "EXCLUDE" then do
          if ← eatKeyword "NO" then do expectKeyword "OTHERS"; pure FrameExclusion.noOthers
          else if ← eatKeyword "CURRENT" then do expectKeyword "ROW"; pure FrameExclusion.currentRow
          else if ← eatKeyword "GROUP" then pure FrameExclusion.group
          else if ← eatKeyword "TIES" then pure FrameExclusion.ties
          else throw "syntax error"
        else pure FrameExclusion.unstated
      checkFrame start.kind finish.kind
      pure { unit, start, finish, exclude, implicit := false }

/-- One end of a window frame. `UNBOUNDED` is followed by the direction this end allows. -/
def frameBound : Nat → Bool → Parser FrameBound
  | 0, _ => throw "expression too deep"
  | fuel + 1, starting => do
    if ← eatKeyword "UNBOUNDED" then
      if starting then
        if ← eatKeyword "PRECEDING" then return ⟨.unboundedPreceding, none⟩
      else if ← eatKeyword "FOLLOWING" then return ⟨.unboundedFollowing, none⟩
      throw "syntax error"
    if (← atKeyword "CURRENT") && (← keywordAhead 1 "ROW") then
      bump
      bump
      return ⟨.currentRow, none⟩
    let offset ← expr fuel
    if ← eatKeyword "PRECEDING" then return ⟨.preceding, some (frameOffset offset)⟩
    if ← eatKeyword "FOLLOWING" then return ⟨.following, some (frameOffset offset)⟩
    throw "syntax error"

/-- The windows of a `WINDOW` clause, the latest first, each building on an earlier one. -/
def windowDefs : Nat → List (String × Window) → Parser (List (String × Window))
  | 0, _ => throw "expression too deep"
  | fuel + 1, earlier => do
    let windowName ← name
    expectKeyword "AS"
    expectSymbol "("
    let w ← windowSpec fuel
    expectSymbol ")"
    let w ← if earlier.isEmpty then pure { w with base := none }
      else match w.extend earlier with
        | .ok w => pure w
        | .error message => throw message
    let defs := (windowName, w) :: earlier
    if ← eatSymbol "," then windowDefs fuel defs else pure defs

/-- The rows of a `VALUES` list. -/
def valuesRows : Nat → Parser (List (List Expr))
  | 0 => throw "expression too deep"
  | fuel + 1 => do
    expectSymbol "("
    let row ← exprList fuel
    expectSymbol ")"
    if ← eatSymbol "," then return row :: (← valuesRows fuel)
    pure [row]

/-- The columns of a `SELECT`. -/
def resultColumns : Nat → Parser (List ResultColumn)
  | 0 => throw "expression too deep"
  | fuel + 1 => do
    let column ← if ← eatSymbol "*" then pure ResultColumn.all
      else if (← symbolAhead 1 ".") && (← symbolAhead 2 "*") then do
        let table ← name
        bump
        bump
        pure (.allOf table)
      else do
        let start ← get
        let value ← expr fuel
        let text ← textFrom start (← get)
        let aliasName ← alias?
        pure (.expr value aliasName text)
    if ← eatSymbol "," then return column :: (← resultColumns fuel)
    pure [column]

/-- One source of a `FROM` clause: a table, a subquery or parenthesized sources. -/
def singleSource : Nat → Parser Source
  | 0 => throw "expression too deep"
  | fuel + 1 => do
    if ← eatSymbol "(" then
      if ← atQuery then
        let q ← query fuel
        expectSymbol ")"
        return .query q (← alias?)
      let inner ← sources fuel
      expectSymbol ")"
      return inner
    let table ← qualifiedName
    let aliasName ← alias?
    if ← eatKeyword "INDEXED" then
      expectKeyword "BY"
      let _ ← name
    else if (← atKeyword "NOT") && (← keywordAhead 1 "INDEXED") then
      bump
      bump
    pure (.table table aliasName)

/-- The sources of a `FROM` clause, joined. -/
def sources : Nat → Parser Source
  | 0 => throw "expression too deep"
  | fuel + 1 => do
    let first ← singleSource fuel
    joinTail fuel first

/-- The words that may open a join operator. -/
def joinWords : List String := ["CROSS", "FULL", "INNER", "LEFT", "NATURAL", "OUTER", "RIGHT"]

/-- The join the words before `JOIN` ask for, and whether it is natural. -/
def joinKindOf (words : List String) : Option (JoinKind × Bool) :=
  let has (w : String) : Bool := words.any (·.toUpper == w)
  let left := has "LEFT" || has "FULL"
  let right := has "RIGHT" || has "FULL"
  let outer := has "OUTER" || left || right
  let inner := has "INNER" || has "CROSS"
  if !words.all (joinWords.contains ·.toUpper) || (inner && outer) || (outer && !left && !right) then
    none
  else
    let kind := if left && right then JoinKind.full else if right then .right else if left then .left
      else if has "CROSS" then .cross else .inner
    some (kind, has "NATURAL")

/-- The words of a join operator before its `JOIN`: a join word and at most two names. -/
def joinOperator : Parser (Option (List String)) := do
  match ← current with
  | some { kind := .word w, .. } =>
    if ¬joinWords.contains w.toUpper then return none
    bump
    let mut words := [w]
    for _ in [0:2] do
      if ← atKeyword "JOIN" then break
      words := words ++ [← name]
    expectKeyword "JOIN"
    pure (some words)
  | _ => pure none

/-- The joins after a source. -/
def joinTail : Nat → Source → Parser Source
  | 0, _ => throw "expression too deep"
  | fuel + 1, left => do
    if ← eatSymbol "," then
      let right ← singleSource fuel
      return ← joinTail fuel (.join .cross false left right none [])
    let kind ← if ← eatKeyword "JOIN" then pure (some (JoinKind.inner, false))
      else match ← joinOperator with
        | some words =>
          match joinKindOf words with
          | some k => pure (some k)
          | none => throw ("unknown join type: " ++ " ".intercalate words)
        | none => pure none
    match kind with
    | none => pure left
    | some (kind, natural) =>
      let right ← singleSource fuel
      if ← eatKeyword "ON" then
        if natural then throw "a NATURAL join may not have an ON or USING clause"
        let condition ← expr fuel
        return ← joinTail fuel (.join kind natural left right (some condition) [])
      if ← eatKeyword "USING" then
        if natural then throw "a NATURAL join may not have an ON or USING clause"
        expectSymbol "("
        let columns ← names fuel
        expectSymbol ")"
        return ← joinTail fuel (.join kind natural left right none columns)
      joinTail fuel (.join kind natural left right none [])

/-- Names separated by commas. -/
def names : Nat → Parser (List String)
  | 0 => throw "expression too deep"
  | fuel + 1 => do
    let first ← name
    if ← eatSymbol "," then return first :: (← names fuel)
    pure [first]

/-- One `SELECT` or `VALUES` without order or limits. -/
def selectCore : Nat → Parser Query
  | 0 => throw "expression too deep"
  | fuel + 1 => do
    if ← eatKeyword "VALUES" then return .values (← valuesRows fuel)
    expectKeyword "SELECT"
    let distinct ← eatKeyword "DISTINCT"
    if !distinct then let _ ← eatKeyword "ALL"
    let columns ← resultColumns fuel
    let source ← if ← eatKeyword "FROM" then some <$> sources fuel else pure none
    let filter ← if ← eatKeyword "WHERE" then some <$> expr fuel else pure none
    let groupBy ← if ← eatKeyword "GROUP" then do expectKeyword "BY"; exprList fuel else pure []
    let having ← if ← eatKeyword "HAVING" then some <$> expr fuel else pure none
    let windows ← if ← eatKeyword "WINDOW" then windowDefs fuel [] else pure []
    pure (.select distinct columns source filter groupBy having windows)

/-- The compound parts after a query. -/
def compoundTail : Nat → Query → Parser Query
  | 0, _ => throw "expression too deep"
  | fuel + 1, left => do
    let op : Option CompoundOp ← do
      if ← eatKeyword "UNION" then
        if ← eatKeyword "ALL" then pure (some .unionAll) else pure (some .union)
      else if ← eatKeyword "INTERSECT" then pure (some .intersect)
      else if ← eatKeyword "EXCEPT" then pure (some .except)
      else pure none
    match op with
    | some op =>
      let right ← selectCore fuel
      compoundTail fuel (.compound op left right)
    | none => pure left

/-- Terms of an `ORDER BY`: each descending or not, and `NULL` first or last when stated. -/
def orderTerms : Nat → Parser (List (Expr × Bool × Option Bool))
  | 0 => throw "expression too deep"
  | fuel + 1 => do
    let term ← expr fuel
    let descending ← if ← eatKeyword "DESC" then pure true
      else do let _ ← eatKeyword "ASC"; pure false
    let nulls ← do
      if ← eatKeyword "NULLS" then
        if ← eatKeyword "FIRST" then pure (some true) else do expectKeyword "LAST"; pure (some false)
      else pure none
    if ← eatSymbol "," then return (term, descending, nulls) :: (← orderTerms fuel)
    pure [(term, descending, nulls)]

/-- The tables of a `WITH` clause; two may not have one name. -/
def commonTables : Nat → List CommonTable → Parser (List CommonTable)
  | 0, _ => throw "expression too deep"
  | fuel + 1, earlier => do
    let tableName ← name
    let columns ← if ← eatSymbol "(" then do
        let columns ← names fuel
        expectSymbol ")"
        pure columns
      else pure []
    expectKeyword "AS"
    if ← eatKeyword "NOT" then expectKeyword "MATERIALIZED"
    else let _ ← eatKeyword "MATERIALIZED"
    expectSymbol "("
    let q ← query fuel
    expectSymbol ")"
    if earlier.any (sameName ·.name tableName) then
      throw ("duplicate WITH table name: " ++ tableName)
    let tables := earlier ++ [{ name := tableName, columns := columns, query := q }]
    if ← eatSymbol "," then commonTables fuel tables else pure tables

/-- A full query: a `WITH` clause, compound parts, then order and limits. -/
def query : Nat → Parser Query
  | 0 => throw "expression too deep"
  | fuel + 1 => do
    if ← eatKeyword "WITH" then
      let _ ← eatKeyword "RECURSIVE"
      let tables ← commonTables fuel []
      return (← query fuel).withTables tables
    let first ← selectCore fuel
    let body ← compoundTail fuel first
    let orderBy ← if ← eatKeyword "ORDER" then do expectKeyword "BY"; orderTerms fuel
      else pure []
    let (limit, offset) ← if ← eatKeyword "LIMIT" then do
        let first ← expr fuel
        if ← eatKeyword "OFFSET" then pure (some first, some (← expr fuel))
        else if ← eatSymbol "," then pure (some (← expr fuel), some first)
        else pure (some first, none)
      else pure (none, none)
    if orderBy.isEmpty ∧ limit.isNone then pure body
    else pure (.ordered body orderBy limit offset)

end

/-- The conflict resolution of an `ON CONFLICT` clause or an `OR` clause. -/
def conflictName : Parser Conflict := do
  if ← eatKeyword "ROLLBACK" then pure .rollback
  else if ← eatKeyword "ABORT" then pure .abort
  else if ← eatKeyword "FAIL" then pure .fail
  else if ← eatKeyword "IGNORE" then pure .ignore
  else if ← eatKeyword "REPLACE" then pure .replace
  else throw "expected a conflict resolution"

/-- An optional `ON CONFLICT` clause of a constraint. -/
def onConflict : Parser (Option Conflict) := do
  if (← atKeyword "ON") && (← keywordAhead 1 "CONFLICT") then
    bump
    bump
    some <$> conflictName
  else pure none

/-- The trimmed text inside the parentheses at the position, and the expression it holds. -/
def parenthesized (fuel : Nat) : Parser (String × Expr) := do
  let open_ ← get
  expectSymbol "("
  let condition ← expr fuel
  let close ← get
  expectSymbol ")"
  let cursor ← read
  let start := ((cursor.tokens[open_]?.map (·.stop)).getD 0)
  let stop := ((cursor.tokens[close]?.map (·.start)).getD 0)
  let text ← slice start stop
  let trimmed := String.ofList
    ((text.toList.dropWhile isSpace).reverse.dropWhile isSpace).reverse
  pure (trimmed, condition)

/-- A foreign key action. -/
def keyAction : Parser KeyAction := do
  if ← eatKeyword "SET" then
    if ← eatKeyword "NULL" then pure .setNull
    else do expectKeyword "DEFAULT"; pure .setDefault
  else if ← eatKeyword "CASCADE" then pure .cascade
  else if ← eatKeyword "RESTRICT" then pure .restrict
  else do expectKeyword "NO"; expectKeyword "ACTION"; pure .noAction

/-- The clauses after `REFERENCES table (columns)`. -/
def referenceClauses : Nat → References → Parser References
  | 0, target => pure target
  | fuel + 1, target => do
    if (← atKeyword "ON") && !(← keywordAhead 1 "CONFLICT") then
      bump
      if ← eatKeyword "DELETE" then
        let action ← keyAction
        return ← referenceClauses fuel { target with onDelete := action }
      expectKeyword "UPDATE"
      let action ← keyAction
      return ← referenceClauses fuel { target with onUpdate := action }
    if ← eatKeyword "MATCH" then
      let _ ← name
      return ← referenceClauses fuel target
    if (← atKeyword "DEFERRABLE") || ((← atKeyword "NOT") && (← keywordAhead 1 "DEFERRABLE")) then
      let negated ← eatKeyword "NOT"
      bump
      let deferred ← do
        if ← eatKeyword "INITIALLY" then
          if ← eatKeyword "DEFERRED" then pure true
          else do expectKeyword "IMMEDIATE"; pure false
        else pure false
      return ← referenceClauses fuel { target with deferred := deferred && !negated }
    pure target

/-- A `REFERENCES` clause after its keyword. -/
def references (fuel : Nat) : Parser References := do
  let table ← qualifiedName
  let columns ← if ← eatSymbol "(" then do
      let columns ← names fuel
      expectSymbol ")"
      pure columns
    else pure []
  referenceClauses fuel { table := table, columns := columns }

/-- A column of a key or index: a name with an optional collation and order. -/
def indexedName : Parser String := do
  let n ← name
  if ← eatKeyword "COLLATE" then let _ ← name
  let _ ← eatKeyword "ASC" <||> eatKeyword "DESC"
  pure n

/-- Columns of a key, separated by commas. -/
def indexedNames : Nat → Parser (List String)
  | 0 => throw "too many columns"
  | fuel + 1 => do
    let first ← indexedName
    if ← eatSymbol "," then return first :: (← indexedNames fuel)
    pure [first]

/-- The value of a `DEFAULT` clause. -/
def defaultValue (fuel : Nat) : Parser Expr := do
  if ← atSymbol "(" then
    bump
    let value ← expr fuel
    expectSymbol ")"
    return value
  if ← eatSymbol "-" then return .unary .neg (← primary fuel)
  if ← eatSymbol "+" then return .unary .pos (← primary fuel)
  match ← current with
  | some { kind := .word w, .. } =>
    let upper := w.toUpper
    if upper = "NULL" ∨ upper = "CURRENT_TIMESTAMP" ∨ upper = "CURRENT_DATE" ∨
        upper = "CURRENT_TIME" then primary fuel
    else if upper = "TRUE" then do bump; pure (.integer "1")
    else if upper = "FALSE" then do bump; pure (.integer "0")
    else do bump; pure (.literal (.text w))
  | some { kind := .quoted s, .. } => bump; pure (.literal (.text s))
  | _ => primary fuel

/-- The constraints of a column definition; `label` is the name a `CONSTRAINT` clause gave. -/
def columnConstraints : Nat → Option String → Parser (List ColumnConstraint)
  | 0, _ => pure []
  | fuel + 1, label => do
    if ← eatKeyword "CONSTRAINT" then
      let n ← name
      return ← columnConstraints fuel (some n)
    if ← eatKeyword "PRIMARY" then
      expectKeyword "KEY"
      let descending ← if ← eatKeyword "DESC" then pure true
        else do let _ ← eatKeyword "ASC"; pure false
      let conflict ← onConflict
      let autoincrement ← eatKeyword "AUTOINCREMENT"
      return .primaryKey descending conflict autoincrement :: (← columnConstraints fuel label)
    if ← eatKeyword "NOT" then
      expectKeyword "NULL"
      let conflict ← onConflict
      return .notNull conflict :: (← columnConstraints fuel label)
    if ← eatKeyword "NULL" then
      let _ ← onConflict
      return ← columnConstraints fuel label
    if ← eatKeyword "UNIQUE" then
      let conflict ← onConflict
      return .unique conflict :: (← columnConstraints fuel label)
    if ← eatKeyword "CHECK" then
      let (text, condition) ← parenthesized fuel
      return .check (label.getD text) condition :: (← columnConstraints fuel label)
    if ← eatKeyword "DEFAULT" then
      let value ← defaultValue fuel
      return .default value :: (← columnConstraints fuel label)
    if ← eatKeyword "COLLATE" then
      let collation ← name
      return .collate collation :: (← columnConstraints fuel label)
    if ← eatKeyword "REFERENCES" then
      let target ← references fuel
      return .references target :: (← columnConstraints fuel label)
    if (← atKeyword "GENERATED") || (← atKeyword "AS") then
      if ← eatKeyword "GENERATED" then expectKeyword "ALWAYS"
      expectKeyword "AS"
      expectSymbol "("
      let value ← expr fuel
      expectSymbol ")"
      let stored ← eatKeyword "STORED"
      if !stored then let _ ← eatKeyword "VIRTUAL"
      return .generated value stored :: (← columnConstraints fuel label)
    pure []

/-- A table constraint, after an optional `CONSTRAINT` name. -/
def tableConstraint (fuel : Nat) (label : Option String) : Parser TableConstraint := do
  if ← eatKeyword "PRIMARY" then
    expectKeyword "KEY"
    expectSymbol "("
    let columns ← indexedNames fuel
    let autoincrement ← eatKeyword "AUTOINCREMENT"
    expectSymbol ")"
    let conflict ← onConflict
    return .primaryKey columns conflict autoincrement
  if ← eatKeyword "UNIQUE" then
    expectSymbol "("
    let columns ← indexedNames fuel
    expectSymbol ")"
    let conflict ← onConflict
    return .unique columns conflict
  if ← eatKeyword "CHECK" then
    let (text, condition) ← parenthesized fuel
    let _ ← onConflict
    return .check (label.getD text) condition
  expectKeyword "FOREIGN"
  expectKeyword "KEY"
  expectSymbol "("
  let columns ← names fuel
  expectSymbol ")"
  expectKeyword "REFERENCES"
  return .foreignKey columns (← references fuel)

/-- Whether a table constraint starts at the position. -/
def atTableConstraint : Parser Bool := do
  pure ((← atKeyword "CONSTRAINT") || (← atKeyword "PRIMARY") || (← atKeyword "UNIQUE") ||
    (← atKeyword "CHECK") || (← atKeyword "FOREIGN"))

/-- Table constraints separated by commas (the comma may be left out). -/
def tableConstraints : Nat → Parser (List TableConstraint)
  | 0 => pure []
  | fuel + 1 => do
    let label ← if ← eatKeyword "CONSTRAINT" then some <$> name else pure none
    let constraint ← tableConstraint fuel label
    let _ ← eatSymbol ","
    if ← atTableConstraint then return constraint :: (← tableConstraints fuel)
    pure [constraint]

/-- A column definition. -/
def columnDef (fuel : Nat) : Parser ColumnDef := do
  let columnName ← name
  let type ← typeName
  let constraints ← columnConstraints fuel none
  pure { name := columnName, type := type, constraints := constraints }

/-- The column definitions of a table, then its constraints. -/
def tableElements : Nat → Parser (List ColumnDef × List TableConstraint)
  | 0 => pure ([], [])
  | fuel + 1 => do
    if ← atTableConstraint then return ([], ← tableConstraints fuel)
    let column ← columnDef fuel
    if ← eatSymbol "," then
      let (columns, constraints) ← tableElements fuel
      return (column :: columns, constraints)
    pure ([column], [])

/-- The options after a table's definition. -/
def tableOptions : Nat → TableOptions → Parser TableOptions
  | 0, options => pure options
  | fuel + 1, options => do
    let options ← do
      if ← eatKeyword "WITHOUT" then
        let word ← name
        if word.toUpper != "ROWID" then throw ("unknown table option: " ++ word)
        pure { options with withoutRowid := true }
      else if ← eatKeyword "STRICT" then pure { options with strict := true }
      else return options
    if ← eatSymbol "," then tableOptions fuel options else pure options

/-- The assignments of an `UPDATE` or an upsert; a list of columns takes a row value. -/
def assignments : Nat → Parser (List (String × Expr))
  | 0 => throw "too many assignments"
  | fuel + 1 => do
    let these ← if ← eatSymbol "(" then do
        let columns ← names fuel
        expectSymbol ")"
        expectSymbol "="
        match ← expr fuel with
        | .subquery q =>
          pure (columns.zipIdx.map fun (c, i) => (c, Expr.field q i columns.length))
        | value =>
          let items := match value with
            | .row items => items
            | other => [other]
          if items.length ≠ columns.length then
            throw (toString columns.length ++ " columns assigned " ++ toString items.length ++
              " values")
          pure (columns.zip items)
      else do
        let column ← name
        expectSymbol "="
        pure [(column, ← expr fuel)]
    if ← eatSymbol "," then return these ++ (← assignments fuel)
    pure these

/-- The `ON CONFLICT` clauses of an insert. -/
def upserts : Nat → Parser (List Upsert)
  | 0 => pure []
  | fuel + 1 => do
    if (← atKeyword "ON") && (← keywordAhead 1 "CONFLICT") then
      bump
      bump
      let target ← if ← eatSymbol "(" then do
          let columns ← indexedNames fuel
          expectSymbol ")"
          if ← eatKeyword "WHERE" then let _ ← expr fuel
          pure (some columns)
        else pure none
      expectKeyword "DO"
      let action ← if ← eatKeyword "NOTHING" then pure UpsertAction.nothing
        else do
          expectKeyword "UPDATE"
          expectKeyword "SET"
          let sets ← assignments fuel
          let filter ← if ← eatKeyword "WHERE" then some <$> expr fuel else pure none
          pure (.update sets filter)
      return { target := target, action := action } :: (← upserts fuel)
    pure []

/-- Skips tokens up to the end of the statement. -/
def skipStatement : Nat → Parser Unit
  | 0 => pure ()
  | fuel + 1 => do
    if (← atEnd) || (← atSymbol ";") then pure () else do bump; skipStatement fuel

/-- The rest of an `INSERT` after `INTO`. -/
def insertRest (fuel : Nat) (conflict : Option Conflict) : Parser Stmt := do
  let table ← qualifiedName
  if ← eatKeyword "AS" then let _ ← name
  let columns ← if ← eatSymbol "(" then do
      let columns ← names fuel
      expectSymbol ")"
      pure (some columns)
    else pure none
  let source ← if ← eatKeyword "DEFAULT" then do expectKeyword "VALUES"; pure InsertSource.defaults
    else InsertSource.query <$> query fuel
  let ups ← upserts fuel
  if ← atKeyword "RETURNING" then throw "RETURNING is not supported"
  pure (.insert conflict table columns source ups)

/-- The part of a trigger that says when it fires and on what. -/
def triggerEvent (fuel : Nat) : Parser TriggerEvent := do
  if ← eatKeyword "DELETE" then pure .delete
  else if ← eatKeyword "INSERT" then pure .insert
  else do
    expectKeyword "UPDATE"
    if ← eatKeyword "OF" then return .update (some (← names fuel))
    pure (.update none)

mutual

/-- One statement. -/
def statement : Nat → Parser Stmt
  | 0 => throw "statement too deep"
  | fuel + 1 => do
    let start ← get
    if ← eatKeyword "EXPLAIN" then
      skipStatement fuel
      return .noop
    if ← eatKeyword "CREATE" then return ← createStatement fuel start
    if ← eatKeyword "DROP" then
      let kind ← do
        if ← eatKeyword "TABLE" then pure ObjectKind.table
        else if ← eatKeyword "INDEX" then pure .index
        else if ← eatKeyword "VIEW" then pure .view
        else do expectKeyword "TRIGGER"; pure .trigger
      let ifExists ← if ← eatKeyword "IF" then do expectKeyword "EXISTS"; pure true else pure false
      return .drop kind ifExists (← qualifiedName)
    if ← eatKeyword "ALTER" then
      expectKeyword "TABLE"
      let table ← qualifiedName
      if ← eatKeyword "RENAME" then
        if ← eatKeyword "TO" then return .renameTable table (← name)
        let _ ← eatKeyword "COLUMN"
        let old ← name
        expectKeyword "TO"
        return .renameColumn table old (← name)
      if ← eatKeyword "ADD" then
        let _ ← eatKeyword "COLUMN"
        return .addColumn table (← columnDef fuel)
      expectKeyword "DROP"
      let _ ← eatKeyword "COLUMN"
      return .dropColumn table (← name)
    if ← eatKeyword "INSERT" then
      let conflict ← if ← eatKeyword "OR" then some <$> conflictName else pure none
      expectKeyword "INTO"
      return ← insertRest fuel conflict
    if ← eatKeyword "REPLACE" then
      expectKeyword "INTO"
      return ← insertRest fuel (some .replace)
    if ← eatKeyword "UPDATE" then
      let conflict ← if ← eatKeyword "OR" then some <$> conflictName else pure none
      let table ← qualifiedName
      if ← eatKeyword "AS" then let _ ← name
      expectKeyword "SET"
      let sets ← assignments fuel
      if ← atKeyword "FROM" then throw "UPDATE FROM is not supported"
      let filter ← if ← eatKeyword "WHERE" then some <$> expr fuel else pure none
      return .update conflict table sets filter
    if ← eatKeyword "DELETE" then
      expectKeyword "FROM"
      let table ← qualifiedName
      if ← eatKeyword "AS" then let _ ← name
      let filter ← if ← eatKeyword "WHERE" then some <$> expr fuel else pure none
      return .delete table filter
    if (← atKeyword "SELECT") || (← atKeyword "VALUES") then return .select (← query fuel)
    if ← eatKeyword "WITH" then
      let _ ← eatKeyword "RECURSIVE"
      let tables ← commonTables fuel []
      let stmt ← statement fuel
      match stmt with
      | .insert .. | .update .. | .delete .. | .select _ => return stmt.withTables tables
      | _ => throw "syntax error"
    if ← eatKeyword "PRAGMA" then
      let pragmaName ← qualifiedName
      if ← eatSymbol "=" then return .pragma pragmaName (some (← defaultValue fuel))
      if ← eatSymbol "(" then
        let value ← defaultValue fuel
        expectSymbol ")"
        return .pragma pragmaName (some value)
      return .pragma pragmaName none
    if ← eatKeyword "BEGIN" then
      let _ ← eatKeyword "DEFERRED" <||> eatKeyword "IMMEDIATE" <||> eatKeyword "EXCLUSIVE"
      if ← eatKeyword "TRANSACTION" then
        if !(← atEnd) && !(← atSymbol ";") then let _ ← name
      return .begin
    if (← eatKeyword "COMMIT") || (← eatKeyword "END") then
      let _ ← eatKeyword "TRANSACTION"
      return .commit
    if ← eatKeyword "ROLLBACK" then
      let _ ← eatKeyword "TRANSACTION"
      if ← eatKeyword "TO" then
        let _ ← eatKeyword "SAVEPOINT"
        return .rollbackTo (← name)
      return .rollback
    if ← eatKeyword "SAVEPOINT" then return .savepoint (← name)
    if ← eatKeyword "RELEASE" then
      let _ ← eatKeyword "SAVEPOINT"
      return .release (← name)
    if (← atKeyword "ANALYZE") ||
        (← atKeyword "VACUUM") || (← atKeyword "REINDEX") || (← atKeyword "ATTACH") ||
        (← atKeyword "DETACH") then
      skipStatement fuel
      return .noop
    throw "syntax error"

/-- A `CREATE` statement after its keyword; `start` is where the statement began. -/
def createStatement : Nat → Nat → Parser Stmt
  | 0, _ => throw "statement too deep"
  | fuel + 1, start => do
    let temp ← (eatKeyword "TEMP") <||> (eatKeyword "TEMPORARY")
    let unique ← eatKeyword "UNIQUE"
    let ifNotExists (_ : Unit) : Parser Bool := do
      if ← eatKeyword "IF" then
        expectKeyword "NOT"
        expectKeyword "EXISTS"
        pure true
      else pure false
    if ← eatKeyword "TABLE" then
      let quiet ← ifNotExists ()
      let table ← qualifiedName
      let nameAt := (← get) - 1
      if ← eatKeyword "AS" then
        let q ← query fuel
        return .createTableAs temp quiet table q (← textFrom start (← get))
      expectSymbol "("
      let (columns, constraints) ← tableElements fuel
      expectSymbol ")"
      let options ← tableOptions fuel {}
      return .createTable temp quiet table columns constraints options
        ("CREATE TABLE " ++ (← textFrom nameAt (← get)))
    if ← eatKeyword "INDEX" then
      let quiet ← ifNotExists ()
      let index ← qualifiedName
      let nameAt := (← get) - 1
      expectKeyword "ON"
      let table ← name
      expectSymbol "("
      let columns ← orderTerms fuel
      expectSymbol ")"
      let filter ← if ← eatKeyword "WHERE" then some <$> expr fuel else pure none
      return .createIndex unique quiet index table (columns.map (·.1)) filter
        ((if unique then "CREATE UNIQUE INDEX " else "CREATE INDEX ") ++
          (← textFrom nameAt (← get)))
    if ← eatKeyword "VIEW" then
      let quiet ← ifNotExists ()
      let view ← qualifiedName
      let nameAt := (← get) - 1
      let columns ← if ← eatSymbol "(" then do
          let columns ← names fuel
          expectSymbol ")"
          pure columns
        else pure []
      expectKeyword "AS"
      let body ← query fuel
      return .createView temp quiet view columns body
        ("CREATE VIEW " ++ (← textFrom nameAt (← get)))
    if ← eatKeyword "TRIGGER" then
      let quiet ← ifNotExists ()
      let trigger ← qualifiedName
      let nameAt := (← get) - 1
      let time ← do
        if ← eatKeyword "BEFORE" then pure TriggerTime.before
        else if ← eatKeyword "AFTER" then pure .after
        else if ← eatKeyword "INSTEAD" then do expectKeyword "OF"; pure .insteadOf
        else pure .before
      let event ← triggerEvent fuel
      expectKeyword "ON"
      let table ← qualifiedName
      if ← eatKeyword "FOR" then
        expectKeyword "EACH"
        expectKeyword "ROW"
      let condition ← if ← eatKeyword "WHEN" then some <$> expr fuel else pure none
      expectKeyword "BEGIN"
      let body ← triggerBody fuel
      return .createTrigger temp quiet trigger time event table condition body
        ("CREATE TRIGGER " ++ (← textFrom nameAt (← get)))
    throw "unsupported CREATE statement"

/-- The statements of a trigger up to its `END`. -/
def triggerBody : Nat → Parser (List Stmt)
  | 0 => throw "statement too deep"
  | fuel + 1 => do
    if ← eatKeyword "END" then return []
    let stmt ← statement fuel
    expectSymbol ";"
    return stmt :: (← triggerBody fuel)

end

/-- The fuel for parsing from a token array: sixteen steps per token. -/
def fuelFor (tokens : Array Token) : Nat := 16 * tokens.size + 16

/-- Skips statement separators. -/
def skipSeparators : Nat → Parser Unit
  | 0 => pure ()
  | fuel + 1 => do if ← eatSymbol ";" then skipSeparators fuel

/-- The statement at a token position and the position after its separator; `none` at the end. -/
def statementAt (cursor : Cursor) (pos : Nat) : Except String (Option Stmt × Nat) :=
  let fuel := fuelFor cursor.tokens
  let run : Parser (Option Stmt) := do
    skipSeparators fuel
    if ← atEnd then return none
    let stmt ← statement fuel
    if !(← atEnd) && !(← atSymbol ";") then throw "syntax error"
    let _ ← eatSymbol ";"
    pure (some stmt)
  match (run.run cursor).run pos with
  | .ok (stmt, next) => .ok (stmt, next)
  | .error e => .error e

/-- The cursor over the tokens of some text. -/
def cursorOf (text : String) : Cursor :=
  { tokens := tokenize text, source := text.toList.toArray }

/-- Every statement of a script, or the first syntax error. -/
def script (text : String) : Except String (List Stmt) :=
  let cursor := cursorOf text
  let rec go : Nat → Nat → Except String (List Stmt)
    | 0, _ => .ok []
    | fuel + 1, pos =>
      match statementAt cursor pos with
      | .ok (some stmt, next) => (go fuel next).map (stmt :: ·)
      | .ok (none, _) => .ok []
      | .error e => .error e
  go (cursor.tokens.size + 1) 0

/-- The expression of some text. -/
def expression (text : String) : Except String Expr :=
  let cursor := cursorOf text
  match ((expr (fuelFor cursor.tokens)).run cursor).run 0 with
  | .ok (e, _) => .ok e
  | .error e => .error e

end Parse
end Sql
end TreeHistory
