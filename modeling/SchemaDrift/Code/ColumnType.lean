import SchemaDrift.Code.File
import SchemaDrift.Type.Basic
/-!
The column types of field types. Only the last name of a path counts, wherever it leads from.
-/

set_option autoImplicit false

namespace SchemaDrift.Code

def baseType? : String → Option BaseType
  | "bool" => some .boolean
  | "i8" | "i16" | "u8" => some .smallInt
  | "i32" | "u16" => some .integer
  | "i64" | "u32" | "u64" | "isize" | "usize" => some .bigInt
  | "f32" => some .real
  | "f64" => some .double
  | "String" | "char" => some .text
  | "Bytes" => some .bytes
  | "NaiveDate" | "Date" => some .date
  | "NaiveTime" | "Time" => some .time
  | "NaiveDateTime" | "PrimitiveDateTime" => some .timestamp
  | "DateTime" | "OffsetDateTime" | "Timestamp" => some .timestampTz
  | "Uuid" => some .uuid
  | "Json" => some .json
  | "Decimal" | "BigDecimal" => some .decimal
  | _ => none

def Segment.name : Segment → String
  | mk name _ => name

namespace FieldType

def isName (name : String) : FieldType → Bool
  | path false false [.mk n none] => n = name
  | _ => false

def argument? (wrapper : String) : FieldType → Option FieldType
  | path _ _ segments => match segments.getLast? with
    | some (.mk name (some [.type argument])) => if name = wrapper then some argument else none
    | _ => none
  | _ => none

-- `Value` is a document by itself or by the library it comes from.
def isDocument (segments : List Segment) : Bool :=
  segments.length = 1 || segments.any (·.name = "serde_json")

def scalar? : FieldType → Option ColumnType
  | path _ _ segments => match segments.getLast? with
    | some segment =>
      if segment.name = "Value" then
        if isDocument segments then some { base := .json } else none
      else (baseType? segment.name).map fun base => { base }
    | none => none
  | reference (slice element) => if element.isName "u8" then some { base := .bytes } else none
  | reference target => if target.isName "str" then some { base := .text } else none
  | paren inner => inner.scalar?
  | slice _ | other => none

-- `Vec<u8>` holds bytes, any other `Vec` is an array.
def value? (type : FieldType) : Option ColumnType :=
  match type.argument? "Vec" with
  | some element =>
    if element.isName "u8" then some { base := .bytes }
    else element.scalar?.map fun scalar => { scalar with array := true }
  | none => type.scalar?

def column? (type : FieldType) : Option (ColumnType × Bool) :=
  match type.argument? "Option" with
  | some inner => inner.value?.map (·, true)
  | none => type.value?.map (·, false)

end FieldType

end SchemaDrift.Code
