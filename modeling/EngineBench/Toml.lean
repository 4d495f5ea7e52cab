import EngineBench.Decimal.Literal

/-!
# TOML values

What a TOML document says once its tables are put together: members have distinct names, in the
order of their first mention. A date or time is kept as its text in normal form.
-/

namespace EngineBench

inductive Toml where
  | text (s : String)
  | integer (i : Int)
  | float (x : Binary64)
  | bool (b : Bool)
  | moment (s : String)
  | array (elements : List Toml)
  | table (members : List (String × Toml))
  deriving Inhabited

end EngineBench
