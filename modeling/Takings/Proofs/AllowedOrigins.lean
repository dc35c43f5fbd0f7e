import Takings.Proofs.EnvironmentNumbers
import Takings.Proofs.Responses
import Takings.Proofs.WrittenForms

/-!
# Allowed origins

The origins that an environment lists have access to the service, as far as they can be header
values. The service starts with every list but one that has the wildcard as an entry of its own:
that entry is a header value, so it is not passed over, and it is no origin.
-/
namespace Takings

open Text

/-! ### Texts in the environment -/

namespace Settings

/-- The text of the first entry that names a variable. -/
def textOf? (entries : List (String × String)) (v : Variable) : Option String :=
  (entries.find? fun entry => Variable.ofName? entry.1 = some v).map Prod.snd

namespace Environment

variable {e e' : Environment} {name value : String} {v : Variable}
  {entries : List (String × String)}

theorem text?_eq_none_of_isSet (h : e.isSet v = false) : e.text? v = none := by
  rw [isSet, Bool.or_eq_false_iff] at h
  rw [text?, List.find?_eq_none.mpr fun p hp => ?_, Option.map_none]
  exact List.any_eq_false.mp h.1 p hp

/-- An entry that does not name a variable leaves its text as it is. -/
theorem Sets.text?_of_ne (h : Sets e name value e') (hv : Variable.ofName? name ≠ some v) :
    e'.text? v = e.text? v := by
  cases h with
  | ignored _ | number _ _ _ _ => rfl
  | @text w hn _ _ =>
    have hne : ¬ w = v := by
      rintro rfl
      exact hv hn
    simp [text?, hne]

/-- An entry that names a variable is the first one that gives it a text. -/
theorem Sets.text?_of_eq (h : Sets e name value e') (hv : Variable.ofName? name = some v)
    (hb : v.bound? = none) : e.text? v = none ∧ e'.text? v = some value := by
  cases h with
  | ignored hn =>
    rw [hv] at hn
    cases hn
  | text hn hs _ =>
    rw [hv] at hn
    cases hn
    exact ⟨text?_eq_none_of_isSet hs, by simp [text?]⟩
  | number hn _ hb' _ =>
    rw [hv] at hn
    cases hn
    rw [hb] at hb'
    cases hb'

/-- Of an environment that is read, the variables that are texts have those of their entries. -/
theorem text?_of_read (h : read entries = .ok e) (hb : v.bound? = none) :
    e.text? v = textOf? entries v := by
  induction entries using List.reverseRecOn generalizing e with
  | nil =>
    cases h
    rfl
  | append_singleton entries entry ih =>
    obtain ⟨before, hbefore, hset⟩ := exists_of_read_concat h
    have hs := sets_of_set hset
    rw [textOf?, List.find?_append]
    by_cases hv : Variable.ofName? entry.1 = some v
    · obtain ⟨hnone, hsome⟩ := hs.text?_of_eq hv hb
      rw [ih hbefore, textOf?, Option.map_eq_none_iff] at hnone
      rw [hsome, hnone]
      simp [hv]
    · rw [hs.text?_of_ne hv, ih hbefore, textOf?]
      simp [hv]

end Environment

/-! ### Lists of origins -/

/-- The origins that a text lists between commas, without the white space around them. -/
def listedOrigins (text : String) : List String :=
  ((text.toList.splitOn ',').map fun piece => trim (String.ofList piece)).filter (· ≠ "")

/-- The origins that an environment lists. -/
def originsOf (entries : List (String × String)) : List String :=
  (textOf? entries .allowedOrigins).elim [] listedOrigins

end Settings

theorem Text.split_eq_splitOn (sep : Char) (cs : List Char) : split sep cs = cs.splitOn sep := by
  induction cs with
  | nil => rfl
  | cons c cs ih =>
    rw [split, List.splitOn, List.splitOnP_cons_eq_if_modifyHead, ← List.splitOn, ih]
    by_cases hc : c = sep
    · simp [hc]
    · rw [if_neg hc, if_neg (by simpa using hc)]
      cases hcs : cs.splitOn sep with
      | nil => exact absurd hcs (List.splitOn_ne_nil _ _)
      | cons piece pieces => rfl

namespace Settings

theorem listedOrigins_eq (text : String) : listedOrigins text =
    (((split ',' text.toList).map trimList).filter fun e => !e.isEmpty).map String.ofList := by
  have htrim (piece : List Char) : trim (String.ofList piece) = String.ofList (trimList piece) := by
    rw [trim, String.toList_ofList]
  have hblank (piece : List Char) :
      decide (String.ofList (trimList piece) ≠ "") = !(trimList piece).isEmpty := by
    cases trimList piece <;> simp
  rw [listedOrigins, ← split_eq_splitOn]
  simp only [List.filter_map, List.map_map, Function.comp_def, htrim, hblank]

theorem readOrigins_eq (text : String) : readOrigins text =
    if listedOrigins text = [] then none else some (listedOrigins text) := by
  rw [readOrigins, listedOrigins_eq]
  simp only [List.map_eq_nil_iff, List.isEmpty_iff]

/-- Settings list the origins of their environment, and have no list if there is none. -/
theorem allowedOrigins_eq {s : Settings} {entries : List (String × String)} {resolve : Resolver}
    (h : ofEnvironment entries resolve = .ok s) :
    s.allowedOrigins = if originsOf entries = [] then none else some (originsOf entries) := by
  obtain ⟨e, he, -, -, horigins⟩ := exists_of_ofEnvironment h
  rw [horigins, Environment.text?_of_read he rfl, originsOf]
  cases textOf? entries .allowedOrigins with
  | none => rfl
  | some text => exact readOrigins_eq text

/-- Whatever origins are listed, an environment with them and a database is accepted. -/
theorem exists_settings_of_allowedOrigins (text : String) :
    ∃ s, ofEnvironment [("DATABASE_URL", "db"), ("SALES_ALLOWED_ORIGINS", text)] = .ok s := by
  have horigins : Variable.ofName? "SALES_ALLOWED_ORIGINS" = some .allowedOrigins :=
    rfl
  have hset : Environment.set ⟨[(.database, "db")], []⟩ "SALES_ALLOWED_ORIGINS" text =
      .ok ⟨[(.allowedOrigins, text), (.database, "db")], []⟩ := by
    rw [Environment.set, horigins]
    rfl
  have hlisten : listenAddress .nameless ⟨[(.allowedOrigins, text), (.database, "db")], []⟩ =
      .ok ⟨.v4 [0, 0, 0, 0], 0, 3001⟩ :=
    listenAddress_of_none rfl rfl rfl
  rw [ofEnvironment, Environment.read_database_and hset]
  show ∃ s, (listenAddress _ _ >>= _) = _
  rw [hlisten]
  exact ⟨_, rfl⟩

end Settings

/-! ### Policies -/

namespace Http

/-- A byte of a header value: that of a character which is no control character, or a tab. -/
theorem all_encodeChar_iff (c : Char) :
    ((String.utf8EncodeChar c).all fun b => (0x20 ≤ b && b != 0x7F) || b == 0x09) = true ↔
      c = '\t' ∨ ' ' ≤ c ∧ c ≠ '\x7f' := by
  have htab : c = '\t' ↔ c.toNat = 9 := Char.toNat_inj.symm
  have hblank : ' ' ≤ c ↔ 32 ≤ c.toNat := Iff.rfl
  have hdelete : c = '\x7f' ↔ c.toNat = 127 := Char.toNat_inj.symm
  rw [htab, hblank, Ne, hdelete]
  by_cases hc : c.toNat < 128
  · rw [Percent.encodeChar_of_lt hc]
    simp only [List.all_cons, List.all_nil, Bool.and_true, Bool.or_eq_true, Bool.and_eq_true,
      decide_eq_true_eq, bne_iff_ne, beq_iff_eq, UInt8.le_iff_toNat_le, ← UInt8.toNat_inj,
      UInt8.toNat_ofNat', UInt8.reduceToNat, ne_eq]
    omega
  · refine iff_of_true (List.all_eq_true.mpr fun b hb => ?_) (.inr (by omega))
    have hhigh : ¬ b.toNat < 128 := fun hlow => hc (Percent.eq_of_mem_encodeChar hb hlow ▸ hlow)
    simp only [Bool.or_eq_true, Bool.and_eq_true, decide_eq_true_eq, bne_iff_ne, beq_iff_eq,
      UInt8.le_iff_toNat_le, ← UInt8.toNat_inj, UInt8.reduceToNat, ne_eq]
    omega

/-- A text has no control character but the tab. -/
def FreeOfControls (s : String) : Prop :=
  ∀ c ∈ s.toList, c = '\t' ∨ ' ' ≤ c ∧ c ≠ '\x7f'

theorem isHeaderValue_iff (s : String) : isHeaderValue s = true ↔ FreeOfControls s := by
  rw [isHeaderValue, Utf8.encode, List.all_flatMap, List.all_eq_true]
  simp only [all_encodeChar_iff, FreeOfControls]

instance (s : String) : Decidable (FreeOfControls s) :=
  decidable_of_iff _ (isHeaderValue_iff s)

namespace Cors

variable {origins : List String}

theorem ofOrigins_of_no_wildcard (h : "*" ∉ origins) :
    ofOrigins (some origins) = .ok (.listed (origins.filter fun o => FreeOfControls o)) := by
  have hlegal : ¬ (origins.filter isHeaderValue).contains "*" = true := by
    rw [List.contains_iff_mem]
    exact fun hm => h (List.mem_filter.mp hm).1
  have hfilter : origins.filter isHeaderValue = origins.filter fun o => FreeOfControls o := by
    refine List.filter_congr fun o _ => ?_
    rw [Bool.eq_iff_iff, isHeaderValue_iff, decide_eq_true_iff]
  simp only [ofOrigins]
  rw [if_neg hlegal, hfilter]

/-- The wildcard is a header value, so it is not dropped. -/
theorem ofOrigins_of_wildcard (h : "*" ∈ origins) :
    ofOrigins (some origins) = .error .wildcardOrigin := by
  have hlegal : (origins.filter isHeaderValue).contains "*" = true := by
    rw [List.contains_iff_mem]
    exact List.mem_filter.mpr ⟨h, rfl⟩
  simp only [ofOrigins]
  rw [if_pos hlegal]

/-- What becomes of the origins that an environment lists. -/
theorem ofOrigins_of_ofEnvironment {s : Settings} {entries : List (String × String)}
    {resolve : Settings.Resolver} (h : Settings.ofEnvironment entries resolve = .ok s) :
    ofOrigins s.allowedOrigins =
      if "*" ∈ Settings.originsOf entries then .error .wildcardOrigin
      else if Settings.originsOf entries = [] then .ok .everyone
      else .ok (.listed ((Settings.originsOf entries).filter fun o => FreeOfControls o)) := by
  rw [Settings.allowedOrigins_eq h]
  by_cases hnone : Settings.originsOf entries = []
  · simp [hnone, ofOrigins]
  · rw [if_neg hnone, if_neg hnone]
    split
    · exact ofOrigins_of_wildcard ‹_›
    · exact ofOrigins_of_no_wildcard ‹_›

end Cors

/-- The paths of the routes are different and absolute. -/
theorem nodup_paths : (Route.all.map Route.path).Nodup ∧
    ∀ route ∈ Route.all, route.path.toList.head? = some '/' := by
  decide +kernel

/-- Requests for the health of the service are answered with success. -/
theorem exists_reply_health {r : Request} (hm : r.method = "GET") (hp : r.path = "/healthz")
    (c : Cors) (e : Engine) (db : Database) (t : Moment) :
    ∃ reply, handle c e db t r = .ok reply ∧ reply.response.status = 200 := by
  have hroute : Route.ofPath? r.path = some .health := by
    rw [hp]
    rfl
  rw [handle_of_get hm hroute]
  exact ⟨_, rfl, rfl⟩

/-- With an environment that is accepted the service starts unless the wildcard is one of the listed
origins; then it stops before it has answered any request. Everyone has access if no origin is
listed, and else those that are listed and can be header values. No two routes are in each other's
way. -/
theorem starts_unless_wildcard_listed {entries : List (String × String)} {s : Settings}
    {resolve : Settings.Resolver} (h : Settings.ofEnvironment entries resolve = .ok s) :
    let origins := Settings.originsOf entries
    ("*" ∈ origins → Cors.ofOrigins s.allowedOrigins = .error .wildcardOrigin) ∧
    ("*" ∉ origins → ∃ c, Cors.ofOrigins s.allowedOrigins = .ok c ∧
      (origins = [] → c = .everyone) ∧
      (origins ≠ [] → c = .listed (origins.filter fun o => FreeOfControls o)) ∧
      ∀ zone db t (r : Request), r.method = "GET" → r.path = "/healthz" → ∃ reply,
        handle c (.ofSettings s zone) db t r = .ok reply ∧ reply.response.status = 200) ∧
    (Route.all.map Route.path).Nodup ∧
    ∀ route ∈ Route.all, route.path.toList.head? = some '/' := by
  intro origins
  rw [Cors.ofOrigins_of_ofEnvironment h]
  refine ⟨fun hw => if_pos hw, fun hw => ?_, nodup_paths⟩
  rw [if_neg hw]
  by_cases hnone : origins = []
  · exact ⟨.everyone, if_pos hnone, fun _ => rfl, fun hsome => absurd hnone hsome,
      fun _ _ _ _ hm hp => exists_reply_health hm hp ..⟩
  · exact ⟨.listed _, if_neg hnone, fun hempty => absurd hempty hnone, fun _ => rfl,
      fun _ _ _ _ hm hp => exists_reply_health hm hp ..⟩

/-- Entries that are blank or have control characters count for nothing, and neither a wildcard in
an entry nor letters beyond ASCII do any harm. -/
theorem starts_with_odd_origins :
    ∃ s, Settings.ofEnvironment [("DATABASE_URL", "db"),
        ("SALES_ALLOWED_ORIGINS", " http://a , ,**,http://\x07,http://\u00e9,http://a")] = .ok s ∧
      Cors.ofOrigins s.allowedOrigins =
        .ok (.listed ["http://a", "**", "http://\u00e9", "http://a"]) := by
  obtain ⟨s, hs⟩ := Settings.exists_settings_of_allowedOrigins
    " http://a , ,**,http://\x07,http://\u00e9,http://a"
  refine ⟨s, hs, ?_⟩
  obtain ⟨-, hstarts, -⟩ := starts_unless_wildcard_listed hs
  have horigins : Settings.originsOf [("DATABASE_URL", "db"),
      ("SALES_ALLOWED_ORIGINS", " http://a , ,**,http://\x07,http://\u00e9,http://a")] =
      ["http://a", "**", "http://\x07", "http://\u00e9", "http://a"] := by
    decide +kernel
  rw [horigins] at hstarts
  obtain ⟨c, hc, -, hlisted, -⟩ := hstarts (by decide)
  rw [hc, hlisted (by decide)]
  decide +kernel

/-- The wildcard among other origins stops the service. -/
theorem wildcard_stops_service :
    ∃ s, Settings.ofEnvironment [("DATABASE_URL", "db"), ("SALES_ALLOWED_ORIGINS", "http://a,*")] =
        .ok s ∧ Cors.ofOrigins s.allowedOrigins = .error .wildcardOrigin := by
  obtain ⟨s, hs⟩ := Settings.exists_settings_of_allowedOrigins "http://a,*"
  refine ⟨s, hs, ?_⟩
  rw [Cors.ofOrigins_of_ofEnvironment hs]
  decide +kernel

end Http

end Takings
