import SchedLatency.Config.Value
import SchedLatency.Decimal.Reading

namespace SchedLatency.Config.Environment

def nameStart : List Char := "runqlat_".toList

def origin : String := "the environment"

def listKey : String := "output.percentiles"

/-- Writes a point for every two underscores. -/
def dotted : List Char → List Char
  | '_' :: '_' :: rest => '.' :: dotted rest
  | c :: rest => c :: dotted rest
  | [] => []

def key? (name : String) : Option String :=
  let name := (Text.lower name).toList
  if nameStart.isPrefixOf name then some (String.ofList (dotted (name.drop nameStart.length)))
  else none

def value (key text : String) : Value :=
  let scalar := Value.scalar (some origin)
  let low := Text.lower text
  if low = "true" then scalar (.bool true)
  else if low = "false" then scalar (.bool false)
  else match Decimal.signedWord? 10 text.toList,Decimal.double? text with
    | some n,_ => scalar (.integer n)
    | none,some x => scalar (.float x)
    | none,none =>
      if key=listKey then
        .list (some origin) ((text.splitOn ",").map fun part => scalar (.text part))
      else scalar (.text text)

def add (es : List (String×Value)) : String×String → List (String×Value)
  | (name,text) =>
    match key? name with
    | some key => Association.set key (value key text) es
    | none => es

/-- The keys and values that some variables set. Of two variables with one key the later counts. -/
def entries (env : List (String×String)) : List (String×Value) := env.foldl add []

theorem exists_text_of_mem_foldl_add {env : List (String×String)} {es : List (String×Value)}
    (spoken : ∀ e∈es,∃ text,e.2=value e.1 text) :
    ∀ e∈env.foldl add es,∃ text,e.2=value e.1 text := by
  induction env generalizing es with
  | nil => exact spoken
  | cons v env ih =>
    obtain ⟨name,text⟩ := v
    apply ih
    intro e he
    cases hkey : key? name with
    | none =>
      simp only [add,hkey] at he
      exact spoken e he
    | some key =>
      simp only [add,hkey] at he
      rcases Association.mem_of_mem_set he with rfl | he
      · exact ⟨text,rfl⟩
      · exact spoken e he

theorem exists_text_of_mem_entries {env : List (String×String)} {e : String×Value}
    (he : e∈entries env) : ∃ text,e.2=value e.1 text :=
  exists_text_of_mem_foldl_add (List.forall_mem_nil _) e he

end SchedLatency.Config.Environment
