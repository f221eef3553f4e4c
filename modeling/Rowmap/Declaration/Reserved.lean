import Rowmap.Text.Identifier

/-!
# Reserved names

The names that every record type has already. A field with such a key has no accessor of its own; it
is still read and written by its key.
-/

namespace Rowmap.Declaration

/-- The names that a record type offers to callers. -/
def publicNames : List String := [
  "table", "fields", "primary_key_fields", "private_fields", "conn", "pool", "set_connection",
  "set_pool", "get_field_db_name", "get_field_default_value", "get", "set", "is_field_set",
  "is_field_dirty", "is_dirty", "is_primary_key_set", "set_loaded", "get_primary_key_values",
  "load_db_object", "from_db_row", "restore", "data", "to_dict", "load", "save", "delete", "query",
  "find", "find_one", "get_by_primary_key", "delete_one", "delete_by_primary_key"]

/-- The names that a record type keeps to itself, and those that every type has. -/
def innerNames : List String := [
  "_check_field", "_sql_assignments", "_select_fields_sql", "_update", "_insert", "_write", "mro",
  "__annotations__", "__base__", "__bases__", "__basicsize__", "__call__",
  "__class__", "__delattr__", "__dict__", "__dictoffset__", "__dir__", "__doc__", "__eq__",
  "__flags__", "__format__", "__ge__", "__getattribute__", "__getstate__", "__gt__", "__hash__",
  "__init__", "__init_subclass__", "__instancecheck__", "__itemsize__", "__le__", "__lt__",
  "__module__", "__mro__", "__name__", "__ne__", "__new__", "__or__", "__prepare__",
  "__qualname__", "__reduce__", "__reduce_ex__", "__repr__", "__ror__", "__setattr__",
  "__sizeof__", "__str__", "__subclasscheck__", "__subclasses__", "__subclasshook__",
  "__text_signature__", "__weakref__", "__weakrefoffset__"]

/-- The names that belong to the state of every record. -/
def stateNames : List String := ["is_loaded", "warnings"]

/-- Whether a key may have an accessor, apart from those that exist already. -/
def admitsAccessor (key : String) : Bool :=
  Text.isIdentifier key && !stateNames.contains key && !publicNames.contains key &&
    !innerNames.contains key

end Rowmap.Declaration
