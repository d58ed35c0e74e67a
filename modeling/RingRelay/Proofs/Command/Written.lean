import RingRelay.Command.Arguments
import RingRelay.Proofs.Text.Numeral
import RingRelay.Proofs.Text.Utf8
import Mathlib.Data.List.Nodup
import Mathlib.Data.List.Perm.Basic
import Mathlib.Data.List.TakeWhile
/- Arguments written from what they say, and read back.

   Each option can be written in one argument or in two, and all of them in any order. A reader of
   arguments judges the value of an option only when it meets the next one, so what it has read so
   far may still be pending. But whatever comes next, as long as it was written here, first settles
   what is pending. So the arguments are read as if each were judged at once (`finish_written`),
   which gives back what they say, or refuses what is said twice (`parse_written`). -/
namespace RingRelay.Arguments

/-! ## What arguments say -/

/-- One thing that arguments can say. -/
inductive Saying
  | config (path : Path)
  | capacity (n : Nat)
  | input (path : Path)
  | output (path : Path)
  | noFlush
  deriving DecidableEq

/-- What something said is about. -/
inductive Topic
  | option (option : ValueOption)
  | noFlush
  deriving DecidableEq

def Topic.all : List Topic :=
  [.option .config, .option .capacity, .option .input, .option .output, .noFlush]

theorem Topic.mem_all (topic : Topic) : topic ∈ all := by
  cases topic with
  | option option => cases option <;> decide
  | noFlush => decide

def Saying.topic : Saying → Topic
  | config _ => .option .config
  | capacity _ => .option .capacity
  | input _ => .option .input
  | output _ => .option .output
  | noFlush => .noFlush

/-- What arguments say about a topic. -/
def saying? (said : Arguments) : Topic → Option Saying
  | .option .config => said.config.map .config
  | .option .capacity => said.capacity.map .capacity
  | .option .input => said.input.map .input
  | .option .output => said.output.map .output
  | .noFlush => if said.noFlush then some .noFlush else none

/-- All that arguments say, one thing after another. -/
def sayings (said : Arguments) : List Saying := Topic.all.filterMap said.saying?

/-- The arguments with one thing more, whatever they said about it before. -/
def put (said : Arguments) : Saying → Arguments
  | .config path => { said with config := some path }
  | .capacity n => { said with capacity := some n }
  | .input path => { said with input := some path }
  | .output path => { said with output := some path }
  | .noFlush => { said with noFlush := true }

/-- The arguments with one thing more, which must be about a new topic. -/
def add (said : Arguments) (saying : Saying) : Except Stop Arguments :=
  if (said.saying? saying.topic).isSome then .error .repeated else .ok (said.put saying)

/-! ## How it is written -/

/-- The value of an option says something: a path is written as it is, and a capacity in digits,
    with as many zeros and at most one plus sign before them. -/
inductive Value : ValueOption → Bytes → Saying → Prop
  | config {path : Path} : path ≠ [] → Value .config path (.config path)
  | capacity {cs : List Char} {n : Nat} : Text.Writes cs n → n ≤ Text.maxSize →
      Value .capacity (cs.flatMap Utf8.encodeChar) (.capacity n)
  | input {path : Path} : path ≠ [] → Value .input path (.input path)
  | output {path : Path} : path ≠ [] → Value .output path (.output path)

/-- The arguments are one way to write something. A value stands behind an equals sign or in an
    argument of its own, where it must not look like a name. -/
inductive Written : Saying → List Bytes → Prop
  | joined {option : ValueOption} {value : Bytes} {saying : Saying} : Value option value saying →
      Written saying [dash :: dash :: (Utf8.encode option.name ++ equalsSign :: value)]
  | apart {option : ValueOption} {value : Bytes} {saying : Saying} : Value option value saying →
      value = [dash] ∨ value.head? ≠ some dash →
      Written saying [dash :: dash :: Utf8.encode option.name, value]
  | flag : Written .noFlush [dash :: dash :: Utf8.encode Flag.noFlush.name]

/-- The arguments are a way to write several things in their order. -/
inductive WrittenAll : List Saying → List Bytes → Prop
  | nil : WrittenAll [] []
  | cons {saying : Saying} {words : List Bytes} {sayings : List Saying} {rest : List Bytes} :
      Written saying words → WrittenAll sayings rest →
      WrittenAll (saying :: sayings) (words ++ rest)

variable {option : ValueOption} {value : Bytes} {saying : Saying} {words rest : List Bytes}
  {said : Arguments} {p : Progress}

/-! ## Single arguments -/

theorem shape_joined {name : Bytes} (hequals : equalsSign ∉ name) :
    Shape.of (dash :: dash :: (name ++ equalsSign :: value)) = .long name (some value) := by
  have hall : ∀ b ∈ name, (b != equalsSign) = true := by
    intro b hb
    simpa using ne_of_mem_of_not_mem hb hequals
  have htake : (name ++ equalsSign :: value).takeWhile (· != equalsSign) = name := by
    rw [List.takeWhile_append_of_pos hall, List.takeWhile_cons_of_neg (by simp), List.append_nil]
  simp [Shape.of, htake]

theorem shape_name {name : Bytes} (hname : name ≠ []) (hequals : equalsSign ∉ name) :
    Shape.of (dash :: dash :: name) = .long name none := by
  have htake : name.takeWhile (· != equalsSign) = name := by
    rw [List.takeWhile_eq_self_iff]
    intro b hb
    simpa using ne_of_mem_of_not_mem hb hequals
  simp [Shape.of, htake, hname]

theorem shape_value (h : value = [dash] ∨ value.head? ≠ some dash) : Shape.of value = .plain := by
  match value with
  | [] => rfl
  | [_] => rfl
  | a :: b :: rest =>
    have ha : a ≠ dash := by simpa using h
    simp [Shape.of, ha]

theorem once_ok {α : Type} (old : Option α) (new : α) :
    once old (.ok new) = if old.isSome then .error .repeated else .ok (some new) := by
  cases old <;> rfl

theorem path_of_ne_nil (h : value ≠ []) : path value = .ok value := by
  simp [path, h]

theorem size_of_writes {cs : List Char} {n : Nat} (hwrites : Text.Writes cs n)
    (hn : n ≤ Text.maxSize) : size (cs.flatMap Utf8.encodeChar) = .ok n := by
  simp only [size, Utf8.decode?_eq_some_iff.mpr rfl, Text.readSize_eq_ok_iff.mpr ⟨hwrites, hn⟩]

/-- A value that says something adds it to what is said. -/
theorem assign_of_value (h : Value option value saying) :
    said.assign option value = said.add saying := by
  cases h with
  | capacity hwrites hn =>
    simp only [assign, add, Saying.topic, saying?, size_of_writes hwrites hn, once_ok,
      Option.isSome_map]
    split <;> rfl
  | config hpath | input hpath | output hpath =>
    simp only [assign, add, Saying.topic, saying?, path_of_ne_nil hpath, once_ok, Option.isSome_map]
    split <;> rfl

theorem name_ne_nil : Utf8.encode option.name ≠ [] := by
  cases option <;> decide

theorem equalsSign_not_mem_name : equalsSign ∉ Utf8.encode option.name := by
  cases option <;> decide

/-! ## From one argument to the next -/

theorem finish_joined : p.finish
    ((dash :: dash :: (Utf8.encode option.name ++ equalsSign :: value)) :: rest) =
      p.settle >>= fun said => said.assign option value >>= fun said =>
        Progress.finish { said } rest := by
  rw [Progress.finish, shape_joined equalsSign_not_mem_name]
  have hnamed : p.named (Utf8.encode option.name) (some value) =
      p.settle >>= fun said => said.assign option value >>= fun said => .ok { said } := by
    cases option <;> rfl
  simp only [hnamed, bind_assoc]
  rfl

theorem finish_name : p.finish ((dash :: dash :: Utf8.encode option.name) :: rest) =
    p.settle >>= fun said => Progress.finish { said, pending := some (option, none) } rest := by
  rw [Progress.finish, shape_name name_ne_nil equalsSign_not_mem_name]
  have hnamed : p.named (Utf8.encode option.name) none =
      p.settle >>= fun said => .ok { said, pending := some (option, none) } := by
    cases option <;> rfl
  simp only [hnamed, bind_assoc]
  rfl

theorem raise_noFlush : said.raise .noFlush = said.add .noFlush := by
  by_cases h : said.noFlush = true
  · simp [raise, add, Saying.topic, saying?, h]
  · simp [raise, add, Saying.topic, saying?, put, h]

theorem finish_flag : p.finish ((dash :: dash :: Utf8.encode Flag.noFlush.name) :: rest) =
    p.settle >>= fun said => said.add .noFlush >>= fun said => Progress.finish { said } rest := by
  simp only [← raise_noFlush]
  rw [Progress.finish, shape_name (by decide) (by decide)]
  have hnamed : p.named (Utf8.encode Flag.noFlush.name) none =
      p.settle >>= fun said => said.raise .noFlush >>= fun said => .ok { said } := rfl
  simp only [hnamed, bind_assoc]
  rfl

/-- What has been written settles what is pending before all else. -/
theorem finish_eq_settle {sayings : List Saying} (h : WrittenAll sayings words) :
    p.finish words = p.settle >>= fun said => Progress.finish { said } words := by
  cases h with
  | nil =>
    simp only [Progress.finish]
    cases p.settle <;> rfl
  | cons hwritten _ =>
    cases hwritten with
    | joined => simp only [List.cons_append, List.nil_append, finish_joined]; rfl
    | apart => simp only [List.cons_append, List.nil_append, finish_name]; rfl
    | flag => simp only [List.cons_append, List.nil_append, finish_flag]; rfl

/-- However something is written, it is added to what is said before. -/
theorem finish_written {sayings : List Saying} (h : Written saying words)
    (hrest : WrittenAll sayings rest) : Progress.finish { said } (words ++ rest) =
      said.add saying >>= fun said => Progress.finish { said } rest := by
  cases h with
  | joined hvalue =>
    rw [List.cons_append, List.nil_append, finish_joined, ← assign_of_value hvalue]
    rfl
  | @apart option value _ hvalue hplain =>
    calc Progress.finish { said } ([dash :: dash :: Utf8.encode option.name, value] ++ rest)
      _ = Progress.finish { said, pending := some (option, none) } (value :: rest) :=
        finish_name
      _ = Progress.finish { said, pending := some (option, some value) } rest := by
        rw [Progress.finish, shape_value hplain]
        rfl
      _ = said.assign option value >>= fun said => Progress.finish { said } rest :=
        finish_eq_settle hrest
      _ = said.add saying >>= fun said => Progress.finish { said } rest := by
        rw [assign_of_value hvalue]
  | flag => exact finish_flag

/-- Arguments that were written are read as if what they say were said one after another. -/
theorem finish_writtenAll {sayings : List Saying} (h : WrittenAll sayings words) :
    Progress.finish { said } words = sayings.foldlM add said := by
  induction h generalizing said with
  | nil => rfl
  | cons hwritten hrest ih =>
    rw [finish_written hwritten hrest, List.foldlM_cons]
    simp only [ih]

/-! ## One thing after another -/

theorem topic_of_saying?_eq_some {topic : Topic} (h : said.saying? topic = some saying) :
    saying.topic = topic := by
  cases topic with
  | option option =>
    cases option <;> (
      obtain ⟨_, -, rfl⟩ := Option.map_eq_some_iff.mp h
      rfl)
  | noFlush =>
    simp only [saying?, Option.ite_none_right_eq_some, Option.some.injEq] at h
    obtain ⟨-, rfl⟩ := h
    rfl

theorem mem_sayings_iff : saying ∈ said.sayings ↔ said.saying? saying.topic = some saying := by
  simp only [sayings, List.mem_filterMap, Topic.mem_all, true_and]
  constructor
  · intro h
    obtain ⟨topic, htopic⟩ := h
    rwa [topic_of_saying?_eq_some htopic]
  · intro h
    exact ⟨_, h⟩

theorem mem_topics_iff {topic : Topic} :
    topic ∈ said.sayings.map Saying.topic ↔ (said.saying? topic).isSome := by
  simp only [List.mem_map, mem_sayings_iff, Option.isSome_iff_exists]
  constructor
  · intro h
    obtain ⟨saying, hsaying, rfl⟩ := h
    exact ⟨saying, hsaying⟩
  · intro h
    obtain ⟨saying, hsaying⟩ := h
    obtain rfl := topic_of_saying?_eq_some hsaying
    exact ⟨saying, hsaying, rfl⟩

/-- Arguments say one thing at most about each topic. -/
theorem nodup_topics (said : Arguments) : (said.sayings.map Saying.topic).Nodup := by
  have hsublist (topics : List Topic) :
      ((topics.filterMap said.saying?).map Saying.topic).Sublist topics := by
    induction topics with
    | nil => exact List.Sublist.slnil
    | cons topic topics ih =>
      cases hsaying : said.saying? topic with
      | none =>
        rw [List.filterMap_cons_none hsaying]
        exact ih.cons topic
      | some saying =>
        rw [List.filterMap_cons_some hsaying, List.map_cons, topic_of_saying?_eq_some hsaying]
        exact ih.cons_cons topic
  exact (hsublist Topic.all).nodup (by decide)

theorem nodup_sayings (said : Arguments) : said.sayings.Nodup :=
  List.Nodup.of_map _ said.nodup_topics

/-- Arguments that say the same are the same. -/
theorem eq_of_saying?_eq {other : Arguments} (h : said.saying? = other.saying?) : said = other := by
  obtain ⟨config, capacity, input, output, noFlush⟩ := said
  obtain ⟨config', capacity', input', output', noFlush'⟩ := other
  have hconfig : config = config' :=
    Option.map_injective (fun _ _ => Saying.config.inj) (congrFun h (.option .config))
  have hcapacity : capacity = capacity' :=
    Option.map_injective (fun _ _ => Saying.capacity.inj) (congrFun h (.option .capacity))
  have hinput : input = input' :=
    Option.map_injective (fun _ _ => Saying.input.inj) (congrFun h (.option .input))
  have houtput : output = output' :=
    Option.map_injective (fun _ _ => Saying.output.inj) (congrFun h (.option .output))
  have hnoFlush : noFlush = noFlush' := by
    have hflag := congrArg Option.isSome (congrFun h .noFlush)
    cases noFlush <;> cases noFlush' <;> first | rfl | cases hflag
  rw [hconfig, hcapacity, hinput, houtput, hnoFlush]

/-- The order in which arguments say things tells nothing. -/
theorem eq_of_perm {other : Arguments} (h : said.sayings.Perm other.sayings) : said = other := by
  apply eq_of_saying?_eq
  funext topic
  apply Option.ext
  intro saying
  constructor
  · intro hsaying
    obtain rfl := topic_of_saying?_eq_some hsaying
    exact mem_sayings_iff.mp (h.mem_iff.mp (mem_sayings_iff.mpr hsaying))
  · intro hsaying
    obtain rfl := topic_of_saying?_eq_some hsaying
    exact mem_sayings_iff.mp (h.mem_iff.mpr (mem_sayings_iff.mpr hsaying))

theorem saying?_put {topic : Topic} : (said.put saying).saying? topic =
    if topic = saying.topic then some saying else said.saying? topic := by
  cases saying <;> rcases topic with (_ | _ | _ | _) | _ <;> rfl

theorem add_of_mem (hold : saying.topic ∈ said.sayings.map Saying.topic) :
    said.add saying = .error .repeated :=
  if_pos (mem_topics_iff.mp hold)

theorem add_of_not_mem (hnew : saying.topic ∉ said.sayings.map Saying.topic) :
    said.add saying = .ok (said.put saying) :=
  if_neg (mem_topics_iff.not.mp hnew)

/-- With something about a new topic, arguments say this and all that they said before. -/
theorem sayings_put (hnew : saying.topic ∉ said.sayings.map Saying.topic) :
    (said.put saying).sayings.Perm (saying :: said.sayings) := by
  have hnodup : (saying :: said.sayings).Nodup :=
    List.nodup_cons.mpr ⟨fun h => hnew (List.mem_map_of_mem h), said.nodup_sayings⟩
  rw [List.perm_ext_iff_of_nodup (said.put saying).nodup_sayings hnodup]
  intro other
  rw [mem_sayings_iff, saying?_put, List.mem_cons]
  by_cases h : other.topic = saying.topic
  · have hother : other ∉ said.sayings := fun hother => hnew (h ▸ List.mem_map_of_mem hother)
    rw [if_pos h, Option.some_inj]
    simp only [hother, or_false, eq_comm]
  · have hother : other ≠ saying := fun hother => h (congrArg Saying.topic hother)
    rw [if_neg h, ← mem_sayings_iff]
    simp only [hother, false_or]

theorem sayings_put_append (hnew : saying.topic ∉ said.sayings.map Saying.topic)
    (more : List Saying) :
    ((said.put saying).sayings ++ more).Perm (said.sayings ++ saying :: more) :=
  ((sayings_put hnew).append_right more).trans List.perm_middle.symm

/-- What is about topics of its own is said with what was said before. -/
theorem foldlM_add_of_nodup {more : List Saying}
    (h : ((said.sayings ++ more).map Saying.topic).Nodup) :
    ∃ later, more.foldlM add said = .ok later ∧ later.sayings.Perm (said.sayings ++ more) := by
  induction more generalizing said with
  | nil => exact ⟨said, rfl, by rw [List.append_nil]⟩
  | cons saying more ih =>
    have hnew : saying.topic ∉ said.sayings.map Saying.topic := by
      rw [List.map_append, List.map_cons] at h
      intro hold
      exact (List.nodup_append.mp h).2.2 _ hold _ List.mem_cons_self rfl
    have hperm := sayings_put_append hnew more
    obtain ⟨later, hlater, hsame⟩ := ih ((hperm.map Saying.topic).nodup_iff.mpr h)
    refine ⟨later, ?_, hsame.trans hperm⟩
    rw [List.foldlM_cons, add_of_not_mem hnew]
    exact hlater

/-- Nothing can be said about a topic a second time, be it the same. -/
theorem foldlM_add_of_not_nodup {more : List Saying}
    (h : ¬ ((said.sayings ++ more).map Saying.topic).Nodup) :
    more.foldlM add said = .error .repeated := by
  induction more generalizing said with
  | nil => exact absurd said.nodup_topics (by rwa [List.append_nil] at h)
  | cons saying more ih =>
    rw [List.foldlM_cons]
    by_cases hold : saying.topic ∈ said.sayings.map Saying.topic
    · rw [add_of_mem hold]
      rfl
    · rw [add_of_not_mem hold]
      exact ih (((sayings_put_append hold more).map Saying.topic).nodup_iff.not.mpr h)

/-- Arguments written in any order, and each in any form, are read back as what they were written
    from. Only when one topic is written about twice, wherever and in whatever form, are they
    refused. -/
theorem parse_written {sayings : List Saying} (h : WrittenAll sayings words) :
    (∀ said, parse words = .ok said ↔ sayings.Perm said.sayings) ∧
      (parse words = .error .repeated ↔ ¬ (sayings.map Saying.topic).Nodup) := by
  have hparse : parse words = sayings.foldlM add {} := finish_writtenAll h
  by_cases hnodup : (sayings.map Saying.topic).Nodup
  · obtain ⟨said, hsaid, hsame⟩ := @foldlM_add_of_nodup {} sayings hnodup
    rw [hparse, hsaid]
    constructor
    · intro other
      constructor
      · intro heq
        obtain rfl := Except.ok.inj heq
        exact hsame.symm
      · intro hperm
        rw [eq_of_perm (hsame.trans hperm)]
    · simp [hnodup]
  · rw [hparse, @foldlM_add_of_not_nodup {} sayings hnodup]
    constructor
    · intro said
      simp only [reduceCtorEq, false_iff]
      intro hperm
      exact hnodup ((hperm.map Saying.topic).nodup_iff.mpr said.nodup_topics)
    · simp [hnodup]

/-- Paths that look like an option or stand for a stream, and a capacity with a sign and zeros. -/
def mixedSayings : List Saying :=
  [.output (Utf8.encode "--input=x"), .capacity 7, .noFlush, .input (Utf8.encode "-")]

def mixedWords : List Bytes :=
  ["--output=--input=x", "--capacity", "+007", "--no-flush", "--input", "-"].map Utf8.encode

/-- These are read back, and refused with another output behind them. -/
theorem parse_written_mixedWords :
    parse mixedWords = .ok
      { capacity := some 7, input := some (Utf8.encode "-"),
        output := some (Utf8.encode "--input=x"), noFlush := true } ∧
      parse (mixedWords ++ [Utf8.encode "--output", Utf8.encode "y"]) = .error .repeated := by
  have hwrites : Text.Writes ['+', '0', '0', '7'] 7 :=
    ⟨['+'], ['0', '0', '7'], rfl, .inr rfl, by simp, by simp [Text.isDigit], rfl⟩
  have hcapacity : Value .capacity (Utf8.encode "+007") (.capacity 7) :=
    .capacity hwrites (by decide)
  have hinput : Value .input (Utf8.encode "-") (.input (Utf8.encode "-")) := .input (by decide)
  have houtput (path : Path) (hpath : path ≠ []) : Value .output path (.output path) :=
    .output hpath
  have hfirst : Written (.output (Utf8.encode "--input=x")) [Utf8.encode "--output=--input=x"] :=
    .joined (houtput _ (by decide))
  have hmixed {sayings : List Saying} {rest : List Bytes} (hrest : WrittenAll sayings rest) :
      WrittenAll (mixedSayings ++ sayings) (mixedWords ++ rest) := by
    have hlast := WrittenAll.cons (.apart hinput (by decide)) hrest
    have hall := WrittenAll.cons hfirst <| .cons (.apart hcapacity (by decide)) <| .cons .flag hlast
    exact hall
  have hagain : WrittenAll [.output (Utf8.encode "y")] [Utf8.encode "--output", Utf8.encode "y"] :=
    .cons (.apart (houtput _ (by decide)) (by decide)) .nil
  constructor
  · exact ((parse_written (hmixed .nil)).1 _).mpr (by decide)
  · exact (parse_written (hmixed hagain)).2.mpr (by decide)

end RingRelay.Arguments
