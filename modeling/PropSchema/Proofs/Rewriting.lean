/-
PropSchema.Proofs.Rewriting — setting again what was got.

The text under a key may be anything: another client wrote it, or an older schema did. If a
property reads a value out of it, setting that value again is no misuse, and it is the same
value that is read afterwards. What changes is at most the text, and it changes once: it becomes
the one that the encoder has for the value, or it stays because the key is written only once.

§1 Decoding — what is decoded fits, and its list can be cut again.
§2 Once     — `Rewritten`, what one rewrite leaves behind.
§3 Runs     — rewrites one after the other: the step, then the run by induction.
§4 Schemas  — `rewriting_of_load`.
-/
import PropSchema.Proofs.Schema.Loading
import PropSchema.Proofs.Value.Exactness

namespace PropSchema

/-! ## §1 Decoding -/

namespace Descriptor

/-- A single value that is decoded is of the descriptor's kind. -/
theorem fitsItem_of_decodeItem {d : Descriptor} {raw : String} {value : Value}
    (h : d.decodeItem raw = some value) : d.FitsItem value := by
  unfold decodeItem at h
  cases hkind : d.type.kind with
  | enumeration =>
    simp only [hkind] at h
    obtain ⟨n, hn, rfl⟩ := Option.map_eq_some_iff.1 h
    obtain ⟨hlt, _⟩ := List.findIdx?_eq_some_iff_getElem.1 hn
    exact ⟨hkind, hlt⟩
  | string =>
    simp only [hkind, Option.some.injEq] at h
    rw [← h]
    exact hkind
  | _ =>
    simp only [hkind] at h
    obtain ⟨_, _, rfl⟩ := Option.map_eq_some_iff.1 h
    exact hkind

/-- A text that is decoded as a text is decoded as itself. -/
theorem eq_of_decodeItem_string {d : Descriptor} {raw s : String}
    (h : d.decodeItem raw = some (.string s)) : raw = s := by
  have hkind : d.type.kind = .string := fitsItem_of_decodeItem h
  simpa [decodeItem, hkind] using h

end Descriptor

/-- What is decoded fits its descriptor, and is cut out of its own text again. -/
theorem Descriptor.fits_of_decode {d : Descriptor} {raw : String} {value : Value}
    (h : d.decode raw = some value) : d.Fits value ∧ value.Separable := by
  by_cases hlist : d.type.isList = true
  · obtain ⟨items, hitems, rfl⟩ := (decode_list_eq_some_iff hlist).1 h
    have hpiece := exists_mem_of_mapM_eq_some hitems
    refine ⟨?_, ?_, fun s hs => ?_⟩
    · rw [Fits, if_pos hlist]
      refine ⟨items, rfl, fun item hitem => ?_⟩
      obtain ⟨piece, _, hdecode⟩ := hpiece item hitem
      exact fitsItem_of_decodeItem hdecode
    · have hlength := length_of_mapM_eq_some hitems
      have hpos := List.length_pos_iff.2 (Text.split_ne_nil ',' raw.toList)
      rw [Text.pieces, List.length_map] at hlength
      exact List.length_pos_iff.1 (by omega)
    · obtain ⟨piece, hmem, hdecode⟩ := hpiece _ hs
      rw [← eq_of_decodeItem_string hdecode]
      exact Text.not_mem_of_mem_pieces hmem
  · rw [decode, if_neg hlist] at h
    have hfit := fitsItem_of_decodeItem h
    refine ⟨by rwa [Fits, if_neg hlist], ?_⟩
    cases value with
    | list items => exact hfit.elim
    | _ => trivial

/-- What is decoded has a text, which is decoded as the same value. -/
theorem Accessor.encode_of_decode {a : Accessor} (ha : a.WellFormed) {raw : String}
    {value : Value} (h : a.descriptor.decode raw = some value) :
    ∃ text, a.encode value = .ok text ∧ a.descriptor.decode text = some value := by
  obtain ⟨hfit, hsep⟩ := Descriptor.fits_of_decode h
  exact decode_encode ha hfit hsep value.doublesReadBack

/-! ## §2 Once -/

namespace Accessor

/-- Getting a value and setting it again. Where there is none, nothing is set. -/
def rewrite (a : Accessor) (store : Store) : Except Misuse Store :=
  match a.get store with
  | none => .ok store
  | some value => (a.set store value).map (·.getD store)

/-- Whether a rewrite has nothing left to do: the key takes no further write, or its text is
the one that the value is written as. -/
def Settled (a : Accessor) (store : Store) : Prop :=
  ∀ raw value, store.read a.key = some raw → a.descriptor.decode raw = some value →
    Store.isWriteOnce a.key = true ∨ a.encode value = .ok raw

/-- What a rewrite leaves behind. -/
structure Rewritten (a : Accessor) (store next : Store) : Prop where
  others : ∀ key, key ≠ a.key → next.read key = store.read key
  value : a.get next = a.get store
  settled : a.Settled next

variable {a : Accessor} {store : Store} {value : Value}

/-- Two stores with the same text under an accessor's key are the same to it. -/
theorem get_congr {other : Store} (h : other.read a.key = store.read a.key) :
    a.get other = a.get store := by
  rw [get, get, h]

theorem Settled.congr {other : Store} (hsettled : a.Settled store)
    (h : other.read a.key = store.read a.key) : a.Settled other := by
  intro raw value hread hdecode
  exact hsettled raw value (h ▸ hread) hdecode

/-- A value that was got is set again without misuse, whatever text it was got from. -/
theorem set_of_get (ha : a.WellFormed) (hget : a.get store = some value) :
    ∃ taken, a.set store value = .ok taken ∧ a.Rewritten store (taken.getD store) := by
  obtain ⟨raw, hread, hdecode⟩ := Option.bind_eq_some_iff.1 hget
  obtain ⟨text, hencode, hback⟩ := encode_of_decode ha hdecode
  have hset : a.set store value = .ok (store.write? a.key text) := by
    rw [set, hencode]
    rfl
  refine ⟨_, hset, ?_⟩
  by_cases honce : Store.isWriteOnce a.key = true
  · have hrefused : store.write? a.key text = none :=
      Store.write?_eq_none_iff.2 ⟨honce, by rw [hread]; rfl⟩
    rw [hrefused]
    exact ⟨fun _ _ => rfl, rfl, fun _ _ _ _ => .inl honce⟩
  · have htaken : store.write? a.key text = some (store.put a.key text) :=
      Store.write?_eq_some_iff.2 ⟨fun h => honce h.1, rfl⟩
    have hnext : (store.put a.key text).read a.key = some text := by
      rw [Store.read_put, if_pos rfl]
    rw [htaken]
    refine ⟨fun key hkey => ?_, ?_, fun raw' value' hread' hdecode' => .inr ?_⟩
    · rw [Option.getD_some, Store.read_put, if_neg hkey]
    · rw [Option.getD_some, hget, get, hnext]
      exact hback
    · obtain rfl := Option.some.inj (hnext.symm.trans hread')
      obtain rfl := Option.some.inj (hback.symm.trans hdecode')
      exact hencode

/-- Where there is nothing left to do, nothing is done. -/
theorem set_of_settled (hsettled : a.Settled store) (hget : a.get store = some value)
    {taken : Option Store} (hset : a.set store value = .ok taken) : taken.getD store = store := by
  obtain ⟨raw, hread, hdecode⟩ := Option.bind_eq_some_iff.1 hget
  obtain ⟨text, hencode, rfl⟩ := Except.map_eq_ok_iff.1 hset
  rcases hsettled raw value hread hdecode with honce | hraw
  · rw [Store.write?_eq_none_iff.2 ⟨honce, by rw [hread]; rfl⟩]
    rfl
  · obtain rfl := Except.ok.inj (hencode.symm.trans hraw)
    cases hwrite : store.write? a.key text with
    | none => rfl
    | some next =>
      rw [(Store.write?_eq_some_iff.1 hwrite).2]
      exact Store.put_eq_self hread

theorem rewrite_rewritten (ha : a.WellFormed) (store : Store) :
    ∃ next, a.rewrite store = .ok next ∧ a.Rewritten store next := by
  unfold rewrite
  cases hget : a.get store with
  | none =>
    refine ⟨store, rfl, fun _ _ => rfl, rfl, fun raw value hread hdecode => ?_⟩
    rw [get, hread, Option.bind_some, hdecode] at hget
    simp at hget
  | some value =>
    obtain ⟨taken, hset, hnext⟩ := set_of_get ha hget
    exact ⟨taken.getD store, by simp [hset, Except.map], hnext⟩

theorem rewrite_of_settled (ha : a.WellFormed) (hsettled : a.Settled store) :
    a.rewrite store = .ok store := by
  unfold rewrite
  cases hget : a.get store with
  | none => rfl
  | some value =>
    obtain ⟨taken, hset, _⟩ := set_of_get ha hget
    simp [hset, Except.map, set_of_settled hsettled hget hset]

end Accessor

/-! ## §3 Runs -/

namespace Store

/-- The stores after each of some rewrites, one after the other. -/
def rewrites (store : Store) : List Accessor → Except Misuse (List Store)
  | [] => .ok []
  | a :: uses =>
    match a.rewrite store with
    | .error e => .error e
    | .ok next => (next.rewrites uses).map (next :: ·)

/-- How often the text under a key changes, from a store over others. -/
def changes (key : String) (store : Store) : List Store → Nat
  | [] => 0
  | next :: later =>
    (if next.read key = store.read key then 0 else 1) + changes key next later

theorem rewrites_cons {store next : Store} {a : Accessor} {uses : List Accessor}
    (h : a.rewrite store = .ok next) :
    store.rewrites (a :: uses) = (next.rewrites uses).map (next :: ·) := by
  rw [rewrites, h]

end Store

/-- Accessors that encode well and keep out of each other's keys. -/
structure Apart (as : List Accessor) : Prop where
  wellFormed : ∀ a ∈ as, a.WellFormed
  keys : ∀ a ∈ as, ∀ b ∈ as, a.key = b.key → a = b

namespace Apart

variable {as uses : List Accessor} {store next : Store} {a b : Accessor}

/-- The step: a rewrite leaves every accessor the value it has. -/
theorem get_eq (h : Apart as) (ha : a ∈ as) (hb : b ∈ as) (hnext : b.Rewritten store next) :
    a.get next = a.get store := by
  by_cases hkey : a.key = b.key
  · obtain rfl := h.keys a ha b hb hkey
    exact hnext.value
  · exact Accessor.get_congr (hnext.others a.key hkey)

/-- The run: rewrites leave every accessor the value it has. -/
theorem exists_rewrites (h : Apart as) (huses : ∀ a ∈ uses, a ∈ as) (store : Store) :
    ∃ stores, store.rewrites uses = .ok stores ∧
      ∀ a ∈ as, ∀ later ∈ stores, a.get later = a.get store := by
  induction uses generalizing store with
  | nil => exact ⟨[], rfl, by simp⟩
  | cons b uses ih =>
    rw [List.forall_mem_cons] at huses
    obtain ⟨next, hrewrite, hnext⟩ := Accessor.rewrite_rewritten (h.wellFormed b huses.1) store
    obtain ⟨stores, hstores, hgets⟩ := ih huses.2 next
    refine ⟨next :: stores, by rw [Store.rewrites_cons hrewrite, hstores]; rfl, fun a ha => ?_⟩
    have hstep := h.get_eq ha huses.1 hnext
    rw [List.forall_mem_cons]
    exact ⟨hstep, fun later hlater => (hgets a ha later hlater).trans hstep⟩

/-- Once an accessor has nothing left to do, its entry changes no more. -/
theorem changes_eq_zero (h : Apart as) (huses : ∀ a ∈ uses, a ∈ as) (ha : a ∈ as)
    (hsettled : a.Settled store) {stores : List Store}
    (hstores : store.rewrites uses = .ok stores) : Store.changes a.key store stores = 0 := by
  induction uses generalizing store stores with
  | nil =>
    obtain rfl := Except.ok.inj hstores
    rfl
  | cons b uses ih =>
    rw [List.forall_mem_cons] at huses
    obtain ⟨next, hrewrite, hnext⟩ := Accessor.rewrite_rewritten (h.wellFormed b huses.1) store
    rw [Store.rewrites_cons hrewrite] at hstores
    obtain ⟨later, hlater, rfl⟩ := Except.map_eq_ok_iff.1 hstores
    have hread : next.read a.key = store.read a.key := by
      by_cases hkey : a.key = b.key
      · obtain rfl := h.keys a ha b huses.1 hkey
        rw [Accessor.rewrite_of_settled (h.wellFormed a ha) hsettled] at hrewrite
        rw [Except.ok.inj hrewrite]
      · exact hnext.others a.key hkey
    rw [Store.changes, if_pos hread, ih huses.2 (hsettled.congr hread) hlater]

/-- No entry changes more than once: the first rewrite through its accessor settles it. -/
theorem changes_le_one (h : Apart as) (huses : ∀ a ∈ uses, a ∈ as) (key : String)
    {stores : List Store} (hstores : store.rewrites uses = .ok stores) :
    Store.changes key store stores ≤ 1 := by
  induction uses generalizing store stores with
  | nil =>
    obtain rfl := Except.ok.inj hstores
    exact Nat.zero_le 1
  | cons b uses ih =>
    rw [List.forall_mem_cons] at huses
    obtain ⟨next, hrewrite, hnext⟩ := Accessor.rewrite_rewritten (h.wellFormed b huses.1) store
    rw [Store.rewrites_cons hrewrite] at hstores
    obtain ⟨later, hlater, rfl⟩ := Except.map_eq_ok_iff.1 hstores
    rw [Store.changes]
    by_cases hkey : key = b.key
    · have hrest := h.changes_eq_zero huses.2 huses.1 hnext.settled hlater
      rw [hkey, hrest]
      split <;> omega
    · rw [if_pos (hnext.others key hkey), Nat.zero_add]
      exact ih huses.2 hlater

end Apart

/-! ## §4 Schemas -/

/-- **Setting again what was got is safe, and does its work at once.** Whatever texts are in a
store, a value that an accessor of a loaded schema gets can be set again without misuse. If the
store takes the write or refuses it, the same value is got afterwards, no other entry is touched,
and setting it once more leaves the store exactly as it is. So a run of rewrites, each accessor
being used as often as one likes, changes no entry more than once and none of the accessors'
values, if no two of the accessors have one key. -/
theorem Schema.rewriting_of_load {text : String} {s : Schema} (hload : load text = .ok s)
    (store : Store) :
    (∀ a ∈ s.accessors, ∀ value, a.get store = some value →
      ∃ taken, a.set store value = .ok taken ∧
        a.get (taken.getD store) = some value ∧
        (∀ key, key ≠ a.key → (taken.getD store).read key = store.read key) ∧
        ∃ again, a.set (taken.getD store) value = .ok again ∧
          again.getD (taken.getD store) = taken.getD store) ∧
    ∀ uses : List Accessor, (∀ a ∈ uses, a ∈ s.accessors) →
      (∀ a ∈ uses, ∀ b ∈ uses, a.key = b.key → a = b) →
        ∃ stores, store.rewrites uses = .ok stores ∧ (∀ key, Store.changes key store stores ≤ 1) ∧
          ∀ a ∈ uses, ∀ later ∈ stores, a.get later = a.get store := by
  have hs := valid_of_load hload
  constructor
  · intro a ha value hget
    have hwell := hs.wellFormed ha
    obtain ⟨taken, hset, hnext⟩ := Accessor.set_of_get hwell hget
    have hback := hnext.value.trans hget
    obtain ⟨again, hagain, _⟩ := Accessor.set_of_get hwell hback
    exact ⟨taken, hset, hback, hnext.others, again, hagain,
      Accessor.set_of_settled hnext.settled hback hagain⟩
  · intro uses huses hkeys
    have hapart : Apart uses := ⟨fun a ha => hs.wellFormed (huses a ha), hkeys⟩
    obtain ⟨stores, hstores, hgets⟩ := hapart.exists_rewrites (fun _ ha => ha) store
    exact ⟨stores, hstores, fun key => hapart.changes_le_one (fun _ ha => ha) key hstores, hgets⟩

/-- A schema of a gauge: a zero point, switches that are stored as digits, and a serial number
that is written once. -/
def gaugeText : String :=
  "module: \"home.Gauge\"\n" ++
  "prop \x7b api_name: \"zero\" type: Double access: ReadWrite \x7d\n" ++
  "prop \x7b api_name: \"armed\" type: BooleanList access: ReadWrite integer_as_bool: true \x7d\n" ++
  "prop \x7b api_name: \"serial\" type: Integer \x7d\n"

/-- What the gauge's text loads as. -/
def gauge : Schema where
  modulePath := "home.Gauge"
  props := [
    { apiName := "zero", type := ⟨.double, false⟩, access := .readWrite, propName := some "zero" },
    { apiName := "armed", type := ⟨.boolean, true⟩, access := .readWrite,
      propName := some "armed", integerAsBool := true },
    { apiName := "serial", type := ⟨.int32, false⟩, propName := some "ro.serial" }]

/-- The accessors of the gauge. -/
def gaugeZero : Accessor := ⟨"zero", "zero", ⟨⟨.double, false⟩, []⟩, false⟩

def gaugeArmed : Accessor := ⟨"armed", "armed", ⟨⟨.boolean, true⟩, []⟩, true⟩

def gaugeSerial : Accessor := ⟨"serial", "ro.serial", ⟨⟨.int32, false⟩, []⟩, false⟩

/-- What careless clients left in a store: a NaN with a sign, booleans in two spellings, and a
number in hexadecimal. -/
def gaugeStore : Store :=
  ((Store.empty.put "zero" "-nan").put "armed" "TRUE,0").put "ro.serial" "0x001F"

/-- All is read, and set again: the first two entries are rewritten, once, and the third is
not. -/
theorem gauge_rewriting :
    Schema.load gaugeText = .ok gauge ∧
      (∃ taken, gaugeArmed.set gaugeStore (.list [.bool true, .bool false]) = .ok taken ∧
        gaugeArmed.get (taken.getD gaugeStore) = some (.list [.bool true, .bool false])) ∧
      (∃ stores, gaugeStore.rewrites
          [gaugeZero, gaugeArmed, gaugeSerial, gaugeArmed, gaugeZero] = .ok stores ∧
        Store.changes "zero" gaugeStore stores ≤ 1 ∧
        ∀ later ∈ stores, gaugeSerial.get later = some (.int 31)) := by
  have hload : Schema.load gaugeText = .ok gauge := by decide +kernel
  have hmem : gaugeZero ∈ gauge.accessors ∧ gaugeArmed ∈ gauge.accessors ∧
      gaugeSerial ∈ gauge.accessors := by decide +kernel
  obtain ⟨honce, hruns⟩ := Schema.rewriting_of_load hload gaugeStore
  have harmed : gaugeArmed.get gaugeStore = some (.list [.bool true, .bool false]) := rfl
  obtain ⟨taken, hset, hback, _⟩ := honce gaugeArmed hmem.2.1 _ harmed
  have hserial : gaugeSerial.get gaugeStore = some (.int 31) := rfl
  obtain ⟨stores, hstores, hchanges, hgets⟩ :=
    hruns [gaugeZero, gaugeArmed, gaugeSerial, gaugeArmed, gaugeZero]
      (by simp [hmem.1, hmem.2.1, hmem.2.2]) (by decide +kernel)
  refine ⟨hload, ⟨taken, hset, hback⟩, stores, hstores, hchanges "zero", fun later hlater => ?_⟩
  rw [hgets gaugeSerial (by simp) later hlater, hserial]

end PropSchema
