import SchemaDrift.Grammar.Expr
/-!
The grammar of schema definitions. It accepts the statements of all dialects.
-/

set_option autoImplicit false

namespace SchemaDrift.Grammar

open SchemaDrift.Grammar.Expr

def quoted (quote : Char) : Expr :=
  many ((char quote ++ char quote) ||| except (char quote))

def between (quote : Char) (inner : Rule) : Expr := char quote ++ rule inner ++ char quote

def blanks : Expr := some (one .blank)

def optionalName : Expr := opt (notAt (char '(') ++ rule .identifier)

def statementChar : Expr := rule .stringLit ||| except (char ';')

def columnClauses : Expr :=
  rule .notNull ||| rule .nullClause ||| rule .defaultClause ||| rule .columnConstraintName
    ||| rule .primaryKeyClause ||| rule .uniqueClause ||| rule .referencesClause
    ||| rule .checkClause ||| rule .autoIncrement ||| rule .identityClause
    ||| rule .generatedClause ||| rule .onUpdateClause ||| rule .collateClause
    ||| rule .commentClause ||| rule .optionsClause ||| rule .hiddenClause

def optionNames : Expr :=
  (word "character".toList ++ blanks ++ word "set".toList) ||| word "charset".toList
    ||| word "collate".toList ||| word "engine".toList ||| word "auto_increment".toList
    ||| word "comment".toList ||| word "row_format".toList

def stopWords : Expr :=
  word "not".toList ||| word "null".toList ||| word "primary".toList ||| word "unique".toList
    ||| word "references".toList ||| word "check".toList ||| word "constraint".toList
    ||| word "auto_increment".toList ||| word "generated".toList ||| word "on".toList
    ||| word "collate".toList ||| word "comment".toList ||| word "options".toList
    ||| word "hidden".toList ||| word "default".toList ||| word "as".toList

def defaultTerm : Expr := rule .stringLit ||| rule .parenGroup ||| rule .exprToken

def whole (e : Expr) : Expr := empty ++ e ++ rule .endOfInput

namespace Rule

def body : Rule → Expr
  | endOfInput => finish
  | document =>
    empty ++ many (opt (rule .statement) ++ char ';') ++ opt (rule .statement) ++ rule .endOfInput
  | statement =>
    rule .createTable ||| rule .createIndex ||| rule .alterTable ||| rule .setStatement
      ||| rule .otherStatement
  | createTableStatement => empty ++ rule .createTable ++ opt (char ';') ++ rule .endOfInput
  | createIndexStatement => empty ++ rule .createIndex ++ opt (char ';') ++ rule .endOfInput
  | alterTableStatement => empty ++ rule .alterTable ++ opt (char ';') ++ rule .endOfInput
  | alterAddAction => whole (rule .addConstraint ||| rule .addIndex ||| rule .addColumn)
  | columnFragment => whole (rule .dataType ++ many (rule .columnClause))
  | constraintFragment => whole (rule .tableConstraint)
  | rest => many statementChar
  | otherStatement => some statementChar
  | setStatement => kw .set ++ rule .rest
  | createTable =>
    kw .create ++ kw .table ++ opt (rule .ifNotExists) ++ rule .qualifiedName
      ++ char '(' ++ rule .tableElement ++ many (char ',' ++ rule .tableElement)
      ++ opt (char ',') ++ char ')' ++ many (rule .tableSuffix)
  | tableElement => rule .tableConstraint ||| rule .indexDefinition ||| rule .columnDef
  | tableSuffix =>
    opt (char ',')
      ++ (rule .spannerPrimaryKey ||| rule .interleaveClause ||| rule .rowDeletionPolicy
        ||| rule .unsupportedTableClause ||| rule .tableOption)
  | spannerPrimaryKey => kw .primary ++ kw .key ++ parens (opt (commaList (rule .indexColumn)))
  | interleaveClause =>
    kw .interleave ++ kw .inWord ++ opt (kw .parent) ++ rule .qualifiedName
      ++ opt (kw .on ++ kw .delete ++ rule .referentialAction)
  | rowDeletionPolicy => kw .row ++ kw .deletion ++ kw .policy ++ rule .parenGroup
  | unsupportedTableClause =>
    (kw .withWord ||| kw .partition ||| kw .inherits ||| kw .tablespace) ++ rule .rest
  | tableOption => rule .optionName ++ opt (char '=') ++ rule .optionValue
  | optionName =>
    opt (word "default".toList ++ blanks) ++ optionNames ++ notAt (one .identifier)
  | optionValue => rule .stringLit ||| rule .optionWord
  | optionWord => some (one .identifier)
  | tableConstraint =>
    opt (rule .constraintName)
      ++ (rule .primaryKeyConstraint ||| rule .foreignKeyConstraint ||| rule .uniqueConstraint
        ||| rule .checkConstraint)
  | constraintName => kw .constraint ++ rule .identifier
  | primaryKeyConstraint => kw .primary ++ kw .key ++ rule .indexColumnList
  | foreignKeyConstraint =>
    kw .foreign ++ kw .key ++ optionalName ++ rule .columnList ++ rule .referencesClause
  | uniqueConstraint =>
    kw .unique ++ opt (kw .key ||| kw .index) ++ optionalName ++ rule .indexColumnList
  | checkConstraint => kw .check ++ rule .parenGroup
  | indexDefinition =>
    opt (rule .indexKind) ++ (kw .index ||| kw .key) ++ optionalName ++ rule .indexColumnList
  | indexKind => kw .fulltext ||| kw .spatial
  | columnList => parens (commaList (rule .identifier))
  | indexColumnList => parens (commaList (rule .indexColumn))
  | indexColumn => rule .identifier ++ opt (rule .prefixLength) ++ opt (rule .sortOrder)
  | prefixLength => parens (rule .number)
  | sortOrder => kw .asc ||| kw .desc
  | columnDef => rule .identifier ++ rule .dataType ++ many (rule .columnClause)
  | columnClause => columnClauses
  | notNull => kw .not ++ kw .null
  | nullClause => kw .null
  | defaultClause => kw .default ++ rule .defaultExpr
  | columnConstraintName => kw .constraint ++ rule .identifier
  | primaryKeyClause => kw .primary ++ kw .key ++ opt (rule .sortOrder)
  | uniqueClause => kw .unique ++ opt (kw .key)
  | checkClause => kw .check ++ rule .parenGroup
  | autoIncrement => kw .autoIncrement
  | identityClause =>
    kw .generated ++ (kw .always ||| (kw .byWord ++ kw .default)) ++ kw .asWord ++ kw .identity
      ++ opt (rule .parenGroup)
  | generatedClause =>
    opt (kw .generated ++ kw .always) ++ kw .asWord ++ rule .parenGroup
      ++ opt (kw .stored ||| kw .virtual)
  | onUpdateClause => kw .on ++ kw .update ++ rule .defaultExpr
  | collateClause => kw .collate ++ (rule .stringLit ||| rule .identifier)
  | commentClause => kw .comment ++ rule .stringLit
  | optionsClause => kw .options ++ rule .parenGroup
  | hiddenClause => kw .hidden
  | referencesClause =>
    kw .references ++ rule .qualifiedName ++ opt (rule .columnList) ++ many (rule .referentialRule)
  | referentialRule => kw .on ++ (kw .delete ||| kw .update) ++ rule .referentialAction
  | referentialAction =>
    kw .cascade ||| kw .restrict ||| (kw .no ++ kw .action) ||| (kw .set ++ kw .null)
      ||| (kw .set ++ kw .default)
  | defaultExpr => defaultTerm ++ many (notAt (rule .stopWord) ++ defaultTerm)
  | exprToken =>
    some (except (one .blank ||| char ',' ||| char '(' ||| char ')' ||| char '\'' ||| char ';'))
  | stopWord => stopWords ++ notAt (one .identifier)
  | parenGroup => parens (many (rule .parenGroup ||| rule .stringLit ||| rule .parenText))
  | parenText => some (except (char '(' ||| char ')' ||| char '\''))
  | dataType => rule .arrayType ||| rule .scalarType
  | arrayType => kw .array ++ char '<' ++ rule .scalarType ++ char '>'
  | scalarType =>
    rule .typeName ++ opt (rule .typeArgs) ++ opt (rule .timeZone) ++ opt (kw .unsigned)
      ++ many (rule .arraySuffix)
  | typeName =>
    (word "double".toList ++ blanks ++ wholeWord "precision")
      ||| (word "character".toList ++ blanks ++ wholeWord "varying")
      ||| (one .identifierStart ++ many (one .identifier))
  | typeArgs => parens (commaList (rule .typeArg))
  | typeArg => rule .number ||| kw .max ||| rule .stringLit
  | timeZone => (kw .withWord ||| kw .without) ++ kw .time ++ kw .zone
  | arraySuffix => char '[' ++ opt (rule .number) ++ char ']'
  | createIndex =>
    kw .create ++ opt (kw .unique) ++ opt (kw .nullFiltered) ++ kw .index
      ++ opt (kw .concurrently) ++ opt (rule .ifNotExists)
      ++ opt (notAt (kw .on) ++ rule .qualifiedName) ++ kw .on ++ opt (kw .only)
      ++ rule .qualifiedName ++ opt (rule .usingClause) ++ rule .indexColumnList
      ++ many (rule .indexSuffix)
  | indexSuffix =>
    opt (char ',')
      ++ (rule .usingClause ||| rule .includeClause ||| rule .storingClause ||| rule .whereClause
        ||| rule .interleaveClause)
  | usingClause => kw .usingWord ++ rule .identifier
  | includeClause => kw .includeWord ++ rule .columnList
  | storingClause => kw .storing ++ rule .columnList
  | whereClause => kw .whereWord ++ rule .rest
  | alterTable =>
    kw .alter ++ kw .table ++ opt (rule .ifExists) ++ opt (kw .only) ++ rule .qualifiedName
      ++ commaList (rule .alterAction)
  | alterAction =>
    rule .addConstraint ||| rule .addIndex ||| rule .addColumn ||| rule .unsupportedAction
  | addConstraint => kw .add ++ rule .tableConstraint
  | addIndex => kw .add ++ rule .indexDefinition
  | addColumn => kw .add ++ opt (kw .column) ++ opt (rule .ifNotExists) ++ rule .columnDef
  | unsupportedAction =>
    some (rule .stringLit ||| rule .parenGroup ||| except (char ',' ||| char ';'))
  | ifNotExists => kw .ifWord ++ kw .not ++ kw .existsWord
  | ifExists => kw .ifWord ++ kw .existsWord
  | qualifiedName => rule .identifier ++ many (char '.' ++ rule .identifier)
  | identifier =>
    rule .quotedIdentifier ||| rule .backtickIdentifier ||| rule .bareIdentifier
  | quotedIdentifier => between '"' .quotedInner
  | quotedInner => quoted '"'
  | backtickIdentifier => between '\x60' .backtickInner
  | backtickInner => quoted '\x60'
  | bareIdentifier => one .identifierStart ++ many (one .identifier)
  | number => some (one .digit)
  | stringLit =>
    char '\'' ++ many ((char '\'' ++ char '\'') ||| (char '\\' ++ anyChar) ||| except (char '\''))
      ++ char '\''
  | keyword k => wholeWord k.text

def layout : Rule → Layout
  | identifier | quotedIdentifier | backtickIdentifier => .tight
  | rest | otherStatement | optionName | optionWord | exprToken | stopWord | parenText | typeName
  | unsupportedAction | quotedInner | backtickInner | bareIdentifier | number | stringLit
  | keyword _ => .token
  | _ => .free

end Rule

end SchemaDrift.Grammar
