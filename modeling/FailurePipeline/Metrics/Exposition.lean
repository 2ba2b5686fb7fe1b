import FailurePipeline.Binary64.Shortest
import FailurePipeline.Metrics.Recorder

/-!
# The text exposition

Each instrument gets a line with its kind and lines with its values.  A histogram shows how many records lie
at or below each bound, their sum and their number.
-/

namespace FailurePipeline

namespace Metrics

/-- The bounds of the histograms in thousandths of a second. -/
def bucketBounds : List Nat := [1, 5, 10, 25, 50, 100, 250, 500, 1000, 2500, 5000, 10000]

/-- A label's value inside quotes: a line feed and a quote are escaped, a backslash is doubled unless the text
already escapes with it. -/
def escapeLabel : (held : Bool) → List Char → List Char
  | held, [] => if held then ['\\', '\\'] else []
  | held, c :: cs =>
    if c = '\n' then '\\' :: 'n' :: escapeLabel false cs
    else if c = '\x22' then '\\' :: '\x22' :: escapeLabel false cs
    else if c = '\\' then (if held then ['\\', '\\'] else []) ++ escapeLabel (!held) cs
    else (if held then ['\\', '\\'] else []) ++ c :: escapeLabel false cs

def labelText (l : String × String) : String :=
  l.1 ++ "=\x22" ++ String.ofList (escapeLabel false l.2.toList) ++ "\x22"

def labelsText : List (String × String) → String
  | [] => ""
  | ls => "\x7b" ++ String.intercalate "," (ls.map labelText) ++ "\x7d"

def sampleLine (name : String) (labels : List (String × String)) (value : String) : String :=
  name ++ labelsText labels ++ " " ++ value

def positionalText (x : Binary64) : String := String.ofList x.positional

def boundText (thousandths : Nat) : String := positionalText (.ofDecimal false thousandths (-3))

/-- Whether a recorded time lies at or below a bound. -/
def within (d : Duration) (thousandths : Nat) : Bool :=
  match Binary64.ofDecimal false thousandths (-3) with
  | .finite _ m q => (toSeconds d).leRatio (Binary64.ratio m q).1 (Binary64.ratio m q).2
  | _ => true

/-- The lines of one histogram; `records` has the latest record first. -/
def histogramLines (key : Key) (records : List Duration) : List String :=
  let buckets := bucketBounds.map fun b =>
    sampleLine (key.name ++ "_bucket") (key.labels ++ [("le", boundText b)])
      (toString (records.countP (within · b)))
  let total := records.foldr (fun d sum => Binary64.add sum (toSeconds d)) (.ofNat 0)
  buckets ++
    [sampleLine (key.name ++ "_bucket") (key.labels ++ [("le", "+Inf")]) (toString records.length),
      sampleLine (key.name ++ "_sum") key.labels (positionalText total),
      sampleLine (key.name ++ "_count") key.labels (toString records.length)]

/-- The names of instruments, each once, in the order of first use. -/
def names {α : Type} (entries : List (Key × α)) : List String := (entries.map (·.1.name)).eraseDups

/-- The lines of the instruments of one kind, each name under its heading. -/
def family {α : Type} (kind : String) (entries : List (Key × α)) (lines : Key → α → List String) :
    List String :=
  (names entries).flatMap fun name =>
    s!"# TYPE {name} {kind}" :: (entries.filter (·.1.name == name)).flatMap (fun e => lines e.1 e.2) ++ [""]

/-- The lines of the exposition, with a blank line after each instrument. -/
def Recorder.exposition (r : Recorder) : List String :=
  family "counter" r.counters (fun k n => [sampleLine k.name k.labels (toString n)]) ++
    family "gauge" r.gauges (fun k n => [sampleLine k.name k.labels (positionalText (.ofNat n))]) ++
    family "histogram" r.histograms histogramLines

end Metrics

end FailurePipeline
