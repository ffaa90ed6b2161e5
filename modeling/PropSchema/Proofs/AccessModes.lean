/-
PropSchema.Proofs.AccessModes — access modes hold without being enforced.

A store does not know the access mode of a property: it goes by keys alone. The modes
hold all the same, over every run of writes, because of how keys are named. The key of a
property that is written again and again is not opened by `ro.`, or its schema would not
load; a derived key of any other property is. So the first takes every write and the
second one only, whoever writes: another client, or another property with the same key.

§1 Writes — raw ones and typed ones, and the store after a run of them.
§2 Keys   — under a key that is written once, the first text stays.
§3 Modes  — `Schema.access_modes_hold`.
-/
import PropSchema.Proofs.Schema.DerivedKeys
import PropSchema.Proofs.Schema.Loading
import PropSchema.Proofs.Value.RoundTrip
import Mathlib.Control.Monad.Basic

namespace PropSchema

/-! ## §1 Writes -/

/-- A write to a store: a text under a key, by any client, or a value through an
accessor, of this schema or of another. -/
inductive Write where
  | raw (key text : String)
  | set (a : Accessor) (value : Value)

namespace Write

/-- The key that is written to. -/
def key : Write → String
  | .raw key _ => key
  | .set a _ => a.key

/-- The text that is written. A value that is misused has none. -/
def text? : Write → Option String
  | .raw _ text => some text
  | .set a value => (a.encode value).toOption

/-- The store after a write, if the store takes it. A misuse writes nothing. -/
def run? (store : Store) : Write → Option Store
  | .raw key text => store.write? key text
  | .set a value =>
    match a.set store value with
    | .error _ => none
    | .ok next => next

/-- A typed write is a raw one of the value's text. -/
theorem run?_eq_some_iff {store next : Store} {w : Write} :
    w.run? store = some next ↔
      ∃ text, w.text? = some text ∧ store.write? w.key text = some next := by
  cases w with
  | raw key text => simp [run?, text?, Write.key]
  | set a value =>
    cases h : a.encode value with
    | error e => simp [run?, text?, Accessor.set, h, Except.map, Except.toOption]
    | ok text => simp [run?, text?, Write.key, Accessor.set, h, Except.map, Except.toOption]

end Write

namespace Store

/-- The store after writes one after the other: those that are not taken leave it as it
was, also if they are misuses. -/
def after (store : Store) : List Write → Store
  | [] => store
  | w :: ws => ((w.run? store).getD store).after ws

/-- Those of the writes that are taken, in order. -/
def taken (store : Store) : List Write → List Write
  | [] => []
  | w :: ws =>
    match w.run? store with
    | none => store.taken ws
    | some next => w :: next.taken ws

/-- A run goes through the store that its beginning leads to. -/
theorem after_append (store : Store) (before later : List Write) :
    store.after (before ++ later) = (store.after before).after later := by
  induction before generalizing store with
  | nil => rfl
  | cons w before ih => exact ih _

/-- A write that is taken puts its text under its key, and leaves what is under every other
key. -/
theorem read_of_run? {store next : Store} {w : Write} (h : w.run? store = some next)
    (key : String) :
    next.read key = if key = w.key then w.text? else store.read key := by
  obtain ⟨text, htext, hwrite⟩ := Write.run?_eq_some_iff.1 h
  rw [(write?_eq_some_iff.1 hwrite).2, read_put, htext]

/-! ## §2 Keys -/

/-- A key that is written once, and holds a text, takes no write. -/
theorem key_ne_of_run? {key : String} (honce : isWriteOnce key = true) {store next : Store}
    {w : Write} (hheld : (store.read key).isSome = true) (h : w.run? store = some next) :
    w.key ≠ key := by
  rintro rfl
  obtain ⟨_, _, hwrite⟩ := Write.run?_eq_some_iff.1 h
  exact (write?_eq_some_iff.1 hwrite).1 ⟨honce, hheld⟩

/-- The step: a text under a key that is written once is left by the next write. -/
theorem read_run?_getD {key : String} (honce : isWriteOnce key = true) {store : Store}
    (hheld : (store.read key).isSome = true) (w : Write) :
    ((w.run? store).getD store).read key = store.read key := by
  cases hrun : w.run? store with
  | none => rfl
  | some next =>
    rw [Option.getD_some, read_of_run? hrun, if_neg (key_ne_of_run? honce hheld hrun).symm]

/-- The run: a text under a key that is written once stays. -/
theorem read_after {key : String} (honce : isWriteOnce key = true) {store : Store}
    (hheld : (store.read key).isSome = true) (ws : List Write) :
    (store.after ws).read key = store.read key := by
  induction ws generalizing store with
  | nil => rfl
  | cons w ws ih =>
    have hstep := read_run?_getD honce hheld w
    rw [after, ih (by rw [hstep, hheld]), hstep]

theorem filter_taken_of_held {key : String} (honce : isWriteOnce key = true) {store : Store}
    (hheld : (store.read key).isSome = true) (ws : List Write) :
    (store.taken ws).filter (fun w => w.key = key) = [] := by
  induction ws generalizing store with
  | nil => rfl
  | cons w ws ih =>
    rw [taken]
    split
    · exact ih hheld
    · rename_i next hrun
      have hkey := key_ne_of_run? honce hheld hrun
      rw [List.filter_cons_of_neg (by simpa using hkey)]
      exact ih (by rw [read_of_run? hrun, if_neg hkey.symm, hheld])

/-- Of the writes to a key that is written once, the first that has a text is taken, and no
other. -/
theorem filter_taken {key : String} (honce : isWriteOnce key = true) {store : Store}
    (hfree : store.read key = none) (ws : List Write) :
    (store.taken ws).filter (fun w => w.key = key) =
      (ws.find? fun w => w.key = key ∧ w.text?.isSome).toList := by
  induction ws generalizing store with
  | nil => rfl
  | cons w ws ih =>
    rw [taken]
    cases hrun : w.run? store with
    | none =>
      have hno : ¬ (w.key = key ∧ w.text?.isSome = true) := by
        rintro ⟨rfl, htext⟩
        obtain ⟨text, htext⟩ := Option.isSome_iff_exists.1 htext
        have hwrite : store.write? w.key text = some (store.put w.key text) :=
          write?_eq_some_iff.2 ⟨by simp [hfree], rfl⟩
        rw [Write.run?_eq_some_iff.2 ⟨text, htext, hwrite⟩] at hrun
        simp at hrun
      rw [List.find?_cons_of_neg (by simpa using hno)]
      exact ih hfree
    | some next =>
      have hread := read_of_run? hrun key
      by_cases hkey : w.key = key
      · obtain ⟨text, htext, _⟩ := Write.run?_eq_some_iff.1 hrun
        rw [if_pos hkey.symm, htext] at hread
        rw [List.find?_cons_of_pos (by simp [hkey, htext]),
          List.filter_cons_of_pos (by simpa using hkey),
          filter_taken_of_held honce (by rw [hread]; rfl)]
        rfl
      · rw [if_neg (Ne.symm hkey), hfree] at hread
        rw [List.find?_cons_of_neg (by simp [hkey]), List.filter_cons_of_neg (by simpa using hkey)]
        exact ih hread

end Store

/-! ## §3 Modes -/

theorem isWriteOnce_iff {key : String} :
    Store.isWriteOnce key = true ↔ ∃ rest, key = "ro." ++ rest :=
  opensWith_iff

namespace Property

/-- A key of a property that is written again and again takes every write. -/
theorem Valid.not_isWriteOnce {owner : Owner} {p : Property} (h : p.Valid owner)
    (haccess : p.access = .readWrite) : ¬ Store.isWriteOnce (p.key owner) = true :=
  fun honce => h.rewritable haccess (isWriteOnce_iff.1 honce)

/-- A derived key of any other property takes one write. -/
theorem isWriteOnce_of_lacksKey {p : Property} (h : p.LacksKey) (haccess : p.access ≠ .readWrite)
    (owner : Owner) : Store.isWriteOnce (p.key owner) = true := by
  rw [key_of_lacksKey h, derivedKey_of_ne_readWrite haccess, isWriteOnce_iff]
  exact ⟨_, rfl⟩

end Property

/-- A value that fits a property whose key takes every write is taken, and its text is what
the key holds then. -/
theorem Accessor.set_taken {a : Accessor} (ha : a.WellFormed)
    (hkey : ¬ Store.isWriteOnce a.key = true) {value : Value} (hfit : a.descriptor.Fits value)
    (store : Store) :
    ∃ raw next, a.encode value = .ok raw ∧ a.set store value = .ok (some next) ∧
      next.read a.key = some raw := by
  obtain ⟨raw, hencode⟩ := Accessor.encode_isOk_of_fits ha hfit
  have hwrite : store.write? a.key raw = some (store.put a.key raw) :=
    Store.write?_eq_some_iff.2 ⟨fun h => hkey h.1, rfl⟩
  refine ⟨raw, store.put a.key raw, hencode, ?_, ?_⟩
  · rw [set, hencode, Except.map, hwrite]
  · rw [Store.read_put, if_pos rfl]

namespace Schema

/-- **Access modes hold over whole runs**, of raw writes by anyone and of values set through
any accessors, from the empty store on. After every run, a value that fits a property for
writing again and again is taken, and its text is under the property's key. Of the writes to
the key of another property that declares none, at most one is taken in the whole run, the
first that has a text; and once there is a text under that key, it stays, and so does what
the property reads as. -/
theorem access_modes_hold {text : String} {s : Schema} (hload : load text = .ok s)
    (history : List Write) :
    (∀ (i : Nat) (p : Property) (a : Accessor), s.props[i]? = some p → s.accessors[i]? = some a →
      p.access = .readWrite → ∀ value, a.descriptor.Fits value →
        ∃ raw next, a.encode value = .ok raw ∧
          a.set (Store.empty.after history) value = .ok (some next) ∧
          next.read a.key = some raw) ∧
    ∀ d, ofText text = .ok d →
      ∀ (i : Nat) (p : Property) (a : Accessor), d.props[i]? = some p → s.accessors[i]? = some a →
        p.access ≠ .readWrite → p.LacksKey →
          ((Store.empty.taken history).filter fun w => w.key = a.key) =
            (history.find? fun w => w.key = a.key ∧ w.text?.isSome).toList ∧
          ((Store.empty.taken history).filter fun w => w.key = a.key).length ≤ 1 ∧
          ∀ before later, history = before ++ later →
            ((Store.empty.after before).read a.key).isSome = true →
              (Store.empty.after history).read a.key = (Store.empty.after before).read a.key ∧
                a.get (Store.empty.after history) = a.get (Store.empty.after before) := by
  have hs := valid_of_load hload
  constructor
  · intro i p a hp ha haccess value hfit
    have hvalid := hs.props p (List.mem_of_getElem? hp)
    rw [accessors, List.getElem?_map, hp, Option.map_some, Option.some.injEq] at ha
    subst ha
    exact Accessor.set_taken hvalid.wellFormed (hvalid.not_isWriteOnce haccess) hfit _
  · intro d hd i p a hp ha haccess hlacks
    obtain ⟨d', hd', _, rfl⟩ := load_eq_ok_iff.1 hload
    obtain rfl := Except.ok.inj (hd.symm.trans hd')
    have hkey : a.key = p.key d.owner := by
      rw [accessors, normalize, List.map_map, List.getElem?_map, hp, Option.map_some,
        Option.some.injEq] at ha
      rw [← ha]
      exact p.key_normalize d.owner
    have honce : Store.isWriteOnce a.key = true := by
      rw [hkey]
      exact Property.isWriteOnce_of_lacksKey hlacks haccess d.owner
    have hfirst := Store.filter_taken honce (Store.read_empty a.key) history
    refine ⟨hfirst, ?_, ?_⟩
    · rw [hfirst]
      exact Option.length_toList_le
    · rintro before later rfl hheld
      have hread := Store.read_after honce hheld later
      rw [← Store.after_append] at hread
      exact ⟨hread, by rw [Accessor.get, Accessor.get, hread]⟩

end Schema

/-- A thermostat: a target that is set again and again, a serial number that is written
once, and a copy of it under the same key. -/
def thermostatText : String :=
  "module: \"home.Thermostat\"\n" ++
  "prop \x7b api_name: \"target\" type: Integer access: ReadWrite \x7d\n" ++
  "prop \x7b api_name: \"serial\" type: String \x7d\n" ++
  "prop \x7b api_name: \"copy\" type: String access: Writeonce prop_name: \"ro.serial\" \x7d\n"

/-- The thermostat as its text declares it, or with the serial number's key written out. -/
def thermostat (serialKey : Option String) (targetKey : Option String) : Schema where
  modulePath := "home.Thermostat"
  props := [
    { apiName := "target", type := ⟨.int32, false⟩, access := .readWrite, propName := targetKey },
    { apiName := "serial", type := ⟨.string, false⟩, propName := serialKey },
    { apiName := "copy", type := ⟨.string, false⟩, access := .writeonce,
      propName := some "ro.serial" }]

/-- The accessors of the thermostat. -/
def thermostatTarget : Accessor := ⟨"target", "target", ⟨⟨.int32, false⟩, []⟩, false⟩

def thermostatSerial : Accessor := ⟨"serial", "ro.serial", ⟨⟨.string, false⟩, []⟩, false⟩

def thermostatCopy : Accessor := ⟨"copy", "ro.serial", ⟨⟨.string, false⟩, []⟩, false⟩

/-- A use of the thermostat by careless clients: a target that is no number, a serial number
that is one, and three serial numbers. -/
def thermostatHistory : List Write := [
  .raw "target" "warm", .set thermostatSerial (.int 7), .set thermostatCopy (.string "A1"),
  .set thermostatTarget (.int 19), .raw "ro.serial" "B2", .set thermostatSerial (.string "C3")]

theorem thermostat_access_modes :
    Schema.load thermostatText = .ok (thermostat (some "ro.serial") (some "target")) ∧
      Schema.ofText thermostatText = .ok (thermostat none none) ∧
      (∃ next, thermostatTarget.set (Store.empty.after thermostatHistory) (.int 21) =
        .ok (some next) ∧ next.read "target" = some "21") ∧
      ((Store.empty.taken thermostatHistory).filter fun w => w.key = "ro.serial") =
        [.set thermostatCopy (.string "A1")] ∧
      thermostatSerial.get (Store.empty.after thermostatHistory) = some (.string "A1") := by
  have hdeclared : Schema.ofText thermostatText = .ok (thermostat none none) := by
    decide +kernel
  have hvalid : (thermostat none none).Valid :=
    Schema.violations_eq_nil_iff.1 (by decide +kernel)
  have hload : Schema.load thermostatText = .ok (thermostat (some "ro.serial") (some "target")) :=
    Schema.load_eq_ok_iff.2 ⟨_, hdeclared, hvalid, by decide +kernel⟩
  obtain ⟨hrewritten, honce⟩ := Schema.access_modes_hold hload thermostatHistory
  obtain ⟨hfirst, _, hstays⟩ :=
    honce _ hdeclared 1 _ thermostatSerial rfl (by decide +kernel) (by decide) (.inl rfl)
  refine ⟨hload, hdeclared, ?_, hfirst, ?_⟩
  · obtain ⟨raw, next, hencode, hset, hread⟩ :=
      hrewritten 0 _ thermostatTarget rfl (by decide +kernel) rfl (.int 21)
        (by simp [Descriptor.Fits, Descriptor.FitsItem, thermostatTarget])
    have hraw : (thermostatTarget.encode (.int 21)).toOption = some "21" := by decide +kernel
    rw [hencode] at hraw
    exact ⟨next, hset, hread.trans hraw⟩
  · exact (hstays (thermostatHistory.take 3) (thermostatHistory.drop 3) rfl rfl).2

end PropSchema
