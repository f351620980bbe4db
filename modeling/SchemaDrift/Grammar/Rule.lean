import SchemaDrift.Text.Blank
/-!
Keywords and grammar rules, with the names they have in messages.
-/

set_option autoImplicit false

namespace SchemaDrift.Grammar

inductive Keyword where
  | action | add | alter | always | array | asWord | asc | autoIncrement | byWord | cascade
  | check | collate | column | comment | concurrently | constraint | create | default | delete
  | deletion | desc | existsWord | foreign | fulltext | generated | hidden | identity | ifWord
  | inWord | includeWord | index | inherits | interleave | key | max | no | not | null
  | nullFiltered | on | only | options | parent | partition | policy | primary | references | restrict | row
  | set | spatial | stored | storing | table | tablespace | time | unique | unsigned | update
  | usingWord | virtual | whereWord | withWord | without | zone
deriving DecidableEq, Repr, Ord

def Keyword.text : Keyword → String
  | action => "action"
  | add => "add"
  | alter => "alter"
  | always => "always"
  | array => "array"
  | asWord => "as"
  | asc => "asc"
  | autoIncrement => "auto_increment"
  | byWord => "by"
  | cascade => "cascade"
  | check => "check"
  | collate => "collate"
  | column => "column"
  | comment => "comment"
  | concurrently => "concurrently"
  | constraint => "constraint"
  | create => "create"
  | default => "default"
  | delete => "delete"
  | deletion => "deletion"
  | desc => "desc"
  | existsWord => "exists"
  | foreign => "foreign"
  | fulltext => "fulltext"
  | generated => "generated"
  | hidden => "hidden"
  | identity => "identity"
  | ifWord => "if"
  | inWord => "in"
  | includeWord => "include"
  | index => "index"
  | inherits => "inherits"
  | interleave => "interleave"
  | key => "key"
  | max => "max"
  | no => "no"
  | not => "not"
  | null => "null"
  | nullFiltered => "null_filtered"
  | on => "on"
  | only => "only"
  | options => "options"
  | parent => "parent"
  | partition => "partition"
  | policy => "policy"
  | primary => "primary"
  | references => "references"
  | restrict => "restrict"
  | row => "row"
  | set => "set"
  | spatial => "spatial"
  | stored => "stored"
  | storing => "storing"
  | table => "table"
  | tablespace => "tablespace"
  | time => "time"
  | unique => "unique"
  | unsigned => "unsigned"
  | update => "update"
  | usingWord => "using"
  | virtual => "virtual"
  | whereWord => "where"
  | withWord => "with"
  | without => "without"
  | zone => "zone"

-- The rules, in the order in which a message lists them.
inductive Rule where
  | endOfInput
  | document | statement | createTableStatement | createIndexStatement | alterTableStatement
  | alterAddAction | columnFragment | constraintFragment | rest | otherStatement | setStatement
  | createTable | tableElement | tableSuffix | spannerPrimaryKey | interleaveClause
  | rowDeletionPolicy | unsupportedTableClause | tableOption | optionName | optionValue
  | optionWord | tableConstraint | constraintName | primaryKeyConstraint | foreignKeyConstraint
  | uniqueConstraint | checkConstraint | indexDefinition | indexKind | columnList
  | indexColumnList | indexColumn | prefixLength | sortOrder | columnDef | columnClause | notNull
  | nullClause | defaultClause | columnConstraintName | primaryKeyClause | uniqueClause
  | checkClause | autoIncrement | identityClause | generatedClause | onUpdateClause
  | collateClause | commentClause | optionsClause | hiddenClause | referencesClause
  | referentialRule | referentialAction | defaultExpr | exprToken | stopWord | parenGroup
  | parenText | dataType | arrayType | scalarType | typeName | typeArgs | typeArg | timeZone
  | arraySuffix | createIndex | indexSuffix | usingClause | includeClause | storingClause
  | whereClause | alterTable | alterAction | addConstraint | addIndex | addColumn
  | unsupportedAction | ifNotExists | ifExists | qualifiedName | identifier | quotedIdentifier
  | quotedInner | backtickIdentifier | backtickInner | bareIdentifier | number | stringLit
  | keyword (word : Keyword)
deriving DecidableEq, Repr, Ord

def Rule.name : Rule → String
  | endOfInput => "end of input"
  | document => "ddl"
  | statement => "statement"
  | createTableStatement => "create table statement"
  | createIndexStatement => "create index statement"
  | alterTableStatement => "alter table statement"
  | alterAddAction => "alter add action"
  | columnFragment => "column fragment"
  | constraintFragment => "constraint fragment"
  | rest => "rest"
  | otherStatement => "other statement"
  | setStatement => "set statement"
  | createTable => "create table"
  | tableElement => "table element"
  | tableSuffix => "table suffix"
  | spannerPrimaryKey => "spanner primary key"
  | interleaveClause => "interleave clause"
  | rowDeletionPolicy => "row deletion policy"
  | unsupportedTableClause => "unsupported table clause"
  | tableOption => "table option"
  | optionName => "option name"
  | optionValue => "option value"
  | optionWord => "option word"
  | tableConstraint => "table constraint"
  | constraintName => "constraint name"
  | primaryKeyConstraint => "primary key constraint"
  | foreignKeyConstraint => "foreign key constraint"
  | uniqueConstraint => "unique constraint"
  | checkConstraint => "check constraint"
  | indexDefinition => "index definition"
  | indexKind => "index kind"
  | columnList => "column list"
  | indexColumnList => "index column list"
  | indexColumn => "index column"
  | prefixLength => "prefix length"
  | sortOrder => "sort order"
  | columnDef => "column def"
  | columnClause => "column clause"
  | notNull => "not null"
  | nullClause => "null clause"
  | defaultClause => "default clause"
  | columnConstraintName => "column constraint name"
  | primaryKeyClause => "primary key clause"
  | uniqueClause => "unique clause"
  | checkClause => "check clause"
  | autoIncrement => "auto increment"
  | identityClause => "identity clause"
  | generatedClause => "generated clause"
  | onUpdateClause => "on update clause"
  | collateClause => "collate clause"
  | commentClause => "comment clause"
  | optionsClause => "options clause"
  | hiddenClause => "hidden clause"
  | referencesClause => "references clause"
  | referentialRule => "referential rule"
  | referentialAction => "referential action"
  | defaultExpr => "default expr"
  | exprToken => "expr token"
  | stopWord => "stop word"
  | parenGroup => "paren group"
  | parenText => "paren text"
  | dataType => "data type"
  | arrayType => "array type"
  | scalarType => "scalar type"
  | typeName => "type name"
  | typeArgs => "type args"
  | typeArg => "type arg"
  | timeZone => "time zone"
  | arraySuffix => "array suffix"
  | createIndex => "create index"
  | indexSuffix => "index suffix"
  | usingClause => "using clause"
  | includeClause => "include clause"
  | storingClause => "storing clause"
  | whereClause => "where clause"
  | alterTable => "alter table"
  | alterAction => "alter action"
  | addConstraint => "add constraint"
  | addIndex => "add index"
  | addColumn => "add column"
  | unsupportedAction => "unsupported action"
  | ifNotExists => "if not exists"
  | ifExists => "if exists"
  | qualifiedName => "qualified name"
  | identifier => "identifier"
  | quotedIdentifier => "quoted identifier"
  | quotedInner => "quoted inner"
  | backtickIdentifier => "backtick identifier"
  | backtickInner => "backtick inner"
  | bareIdentifier => "bare identifier"
  | number => "number"
  | stringLit => "string lit"
  | keyword word => Text.asciiUpper word.text.toList

end SchemaDrift.Grammar
