/-
# `Proto4.PromProxy.Arguments` — the command line of the proxy

`parse_args` of `src/bin/prom_proxy.rs`: a loop over the arguments, then the
environment for what they left out, then the address and the key.

`parseArgs_exact` reads it as a grammar.  A command line is a list of options,
each a flag and the argument after it, whatever that is; the last option of a
flag counts, and it comes before the environment.  Anything else, and anything
missing, ends in the usage text, and only a complete set of settings is looked
at more closely: the address first, and then the key.
-/
import Mathlib.Data.List.Basic
import Proto4.PromProxy.SecretKey

namespace Proto4.PromProxy

open TinyFrame (Key)

/-- What can be set, by a flag or a variable of the environment. -/
inductive Setting
  | listen
  | prometheusUrl
  | redisUrl
  | secretkey
  deriving DecidableEq

namespace Setting

def flag : Setting → String
  | listen => "--listen"
  | prometheusUrl => "--prometheus-url"
  | redisUrl => "--redis-url"
  | secretkey => "--secretkey"

def envVar : Setting → String
  | listen => "PROM_PROXY_LISTEN"
  | prometheusUrl => "PROM_PROXY_URL"
  | redisUrl => "PROM_PROXY_REDIS_URL"
  | secretkey => "PROM_PROXY_SECRETKEY"

/-- The arms of the `match` that take a value. -/
def ofFlag (arg : String) : Option Setting :=
  [listen, prometheusUrl, redisUrl, secretkey].find? fun st => st.flag == arg

theorem ofFlag_eq_some {arg : String} {st : Setting} : ofFlag arg = some st ↔ st.flag = arg := by
  constructor
  · intro h
    simpa using List.find?_some h
  · rintro rfl
    cases st with
    | listen => rfl
    | prometheusUrl => rfl
    | redisUrl => rfl
    | secretkey => rfl

end Setting

/-- How `parse_args` ends the process: with the usage text, after a line of its
own if an argument is unknown, or otherwise. -/
inductive Ending
  | usage (unknown : Option String)
  | exit (e : Exit)
  deriving DecidableEq

/-- What the standard library makes of a socket address, and its `{:?}` of a string. -/
structure RustStd (Addr : Type) where
  parseAddr : String → Except String Addr
  debug : String → String

/-- The four local variables of the loop. -/
abbrev Options := Setting → Option String

/-- The `while let` loop. -/
def parseLoop (options : Options) : List String → Except Ending Options
  | [] => .ok options
  | arg :: args =>
      match Setting.ofFlag arg, args with
      | some st, value :: args => parseLoop (Function.update options st (some value)) args
      | some _, [] => .error (.usage none)
      | none, _ =>
          if arg = "-h" ∨ arg = "--help" then .error (.usage none)
          else .error (.usage (some s!"unknown argument: {arg}"))

/-- An option, or the environment, or the usage text. -/
def orEnv (env : String → Option String) (options : Options) (st : Setting) :
    Except Ending String :=
  match (options st).or (env st.envVar) with
  | some value => .ok value
  | none => .error (.usage none)

/-- `parse_args` up to the four texts. -/
def settings (env : String → Option String) (args : List String) :
    Except Ending (String × String × String × String) := do
  let options ← parseLoop (fun _ => none) args
  let listenS ← orEnv env options .listen
  let prometheusUrl ← orEnv env options .prometheusUrl
  let redisUrl ← orEnv env options .redisUrl
  let keyHex ← orEnv env options .secretkey
  pure (listenS, prometheusUrl, redisUrl, keyHex)

section
variable {Addr : Type} (std : RustStd Addr) (env : String → Option String)

/-- `listen_s.parse()`, or the end of the process. -/
def parseListen (listenS : String) : Except Ending Addr :=
  match std.parseAddr listenS with
  | .ok addr => .ok addr
  | .error e => .error (.exit (.failure s!"invalid listen addr {std.debug listenS}: {e}"))

/-- `parse_args`; `env` answers the variables whose text is Unicode. -/
def parseArgs (args : List String) : Except Ending (Addr × String × String × Key) := do
  let (listenS, prometheusUrl, redisUrl, keyHex) ← settings env args
  let listen ← parseListen std listenS
  let key ← (parseKeyArg keyHex).mapError .exit
  pure (listen, prometheusUrl, redisUrl, key)

/-! ## The grammar -/

/-- A command line: flags, each with its value. -/
def commandLine (given : List (Setting × String)) : List String :=
  given.flatMap fun option => [option.1.flag, option.2]

/-- The value of a setting: the last one given, or the environment's. -/
def value (given : List (Setting × String)) (st : Setting) : Option String :=
  (given.reverse.lookup st).or (env st.envVar)

variable {std env}

/-- The loop's variables after a list of options. -/
def setAll (options : Options) (given : List (Setting × String)) : Options :=
  given.foldl (fun o option => Function.update o option.1 (some option.2)) options

/-- The last value of a setting is the one that is kept. -/
theorem setAll_apply {given : List (Setting × String)} {st : Setting} : ∀ {options : Options},
    setAll options given st = (given.reverse.lookup st).or (options st) := by
  induction given with
  | nil =>
      intro options
      rfl
  | cons option given ih =>
      intro options
      obtain ⟨st', v⟩ := option
      rw [setAll, List.foldl_cons, ← setAll, ih, List.reverse_cons, List.lookup_append,
        Option.or_assoc]
      congr 1
      by_cases hst : st = st'
      · subst hst
        simp
      · have hother : (st == st') = false := beq_eq_false_iff_ne.mpr hst
        rw [Function.update_of_ne hst, List.lookup_cons, hother]
        rfl

theorem orEnv_setAll {given : List (Setting × String)} {st : Setting} {v : String} :
    orEnv env (setAll (fun _ => none) given) st = .ok v ↔ value env given st = some v := by
  rw [orEnv, setAll_apply, Option.or_none, value]
  cases (given.reverse.lookup st).or (env st.envVar) with
  | none => exact iff_of_false (by nofun) (by nofun)
  | some v' => exact ⟨fun h => congrArg _ (Except.ok.inj h), fun h => congrArg _ (Option.some.inj h)⟩

/-- What a list of options starts with. -/
theorem commandLine_eq_cons {given : List (Setting × String)} {arg : String} {args : List String} :
    arg :: args = commandLine given ↔ ∃ st v rest given', given = (st, v) :: given' ∧
      args = v :: rest ∧ Setting.ofFlag arg = some st ∧ rest = commandLine given' := by
  cases given with
  | nil => exact iff_of_false (by nofun) (by rintro ⟨_, _, _, _, h, _⟩; cases h)
  | cons option given =>
      obtain ⟨st, v⟩ := option
      show arg :: args = st.flag :: v :: commandLine given ↔ _
      constructor
      · intro h
        obtain ⟨rfl, rfl⟩ := List.cons.inj h
        exact ⟨st, v, _, given, rfl, rfl, Setting.ofFlag_eq_some.mpr rfl, rfl⟩
      · rintro ⟨st', v', rest, given', hgiven, rfl, hflag, rfl⟩
        obtain ⟨hoption, rfl⟩ := List.cons.inj hgiven
        obtain ⟨rfl, rfl⟩ := Prod.mk.inj hoption
        rw [Setting.ofFlag_eq_some.mp hflag]

/-- **The loop accepts exactly the lists of options.** -/
theorem parseLoop_ok_iff {args : List String} {options options' : Options} :
    parseLoop options args = .ok options' ↔
      ∃ given, args = commandLine given ∧ options' = setAll options given := by
  fun_induction parseLoop options args with
  | case1 options =>
      constructor
      · intro h
        exact ⟨[], rfl, (Except.ok.inj h).symm⟩
      · rintro ⟨given, hargs, rfl⟩
        cases given with
        | nil => rfl
        | cons option given => cases hargs
  | case2 options arg st value args hst ih =>
      rw [ih]
      constructor
      · rintro ⟨given, rfl, rfl⟩
        exact ⟨(st, value) :: given, commandLine_eq_cons.mpr ⟨st, value, _, given, rfl, rfl, hst, rfl⟩,
          rfl⟩
      · rintro ⟨given, hargs, rfl⟩
        obtain ⟨st', v, rest, given', rfl, hargs, hst', rfl⟩ := commandLine_eq_cons.mp hargs
        obtain ⟨rfl, rfl⟩ := List.cons.inj hargs
        obtain rfl := Option.some.inj (hst.symm.trans hst')
        exact ⟨given', rfl, rfl⟩
  | case3 options arg st hst =>
      refine iff_of_false (by nofun) ?_
      rintro ⟨given, hargs, _⟩
      obtain ⟨_, _, _, _, _, hnil, _⟩ := commandLine_eq_cons.mp hargs
      cases hnil
  | case4 options arg args hst hhelp =>
      refine iff_of_false (by nofun) ?_
      rintro ⟨given, hargs, _⟩
      obtain ⟨_, _, _, _, _, _, hst', _⟩ := commandLine_eq_cons.mp hargs
      cases hst.symm.trans hst'
  | case5 options arg args hst hhelp =>
      refine iff_of_false (by nofun) ?_
      rintro ⟨given, hargs, _⟩
      obtain ⟨_, _, _, _, _, _, hst', _⟩ := commandLine_eq_cons.mp hargs
      cases hst.symm.trans hst'

/-- The loop fails in the usage text. -/
theorem parseLoop_error {args : List String} {options : Options} {e : Ending}
    (h : parseLoop options args = .error e) : ∃ unknown, e = .usage unknown := by
  fun_induction parseLoop options args with
  | case1 => cases h
  | case2 options arg st value args hst ih => exact ih h
  | case3 => exact ⟨_, (Except.error.inj h).symm⟩
  | case4 => exact ⟨_, (Except.error.inj h).symm⟩
  | case5 => exact ⟨_, (Except.error.inj h).symm⟩

/-- The settings as they are given, before any of them is looked at. -/
def Given (env : String → Option String) (args : List String)
    (texts : String × String × String × String) : Prop :=
  ∃ given, args = commandLine given ∧ value env given .listen = some texts.1 ∧
    value env given .prometheusUrl = some texts.2.1 ∧
    value env given .redisUrl = some texts.2.2.1 ∧ value env given .secretkey = some texts.2.2.2

theorem settings_ok_iff {args : List String} {texts : String × String × String × String} :
    settings env args = .ok texts ↔ Given env args texts := by
  simp only [settings, Outcome.bind_ok_iff, parseLoop_ok_iff]
  constructor
  · rintro ⟨options, ⟨given, hargs, rfl⟩, listenS, hlisten, url, hurl, redis, hredis, keyHex, hkey,
      htexts⟩
    obtain rfl := Except.ok.inj htexts
    exact ⟨given, hargs, orEnv_setAll.mp hlisten, orEnv_setAll.mp hurl, orEnv_setAll.mp hredis,
      orEnv_setAll.mp hkey⟩
  · rintro ⟨given, hargs, hlisten, hurl, hredis, hkey⟩
    exact ⟨_, ⟨given, hargs, rfl⟩, _, orEnv_setAll.mpr hlisten, _, orEnv_setAll.mpr hurl, _,
      orEnv_setAll.mpr hredis, _, orEnv_setAll.mpr hkey, rfl⟩

theorem orEnv_error {options : Options} {st : Setting} {e : Ending}
    (h : orEnv env options st = .error e) : e = .usage none := by
  rw [orEnv] at h
  split at h
  · cases h
  · exact (Except.error.inj h).symm

/-- Whatever is wrong with the settings as such is answered by the usage text. -/
theorem settings_error {args : List String} {e : Ending} (h : settings env args = .error e) :
    ∃ unknown, e = .usage unknown := by
  simp only [settings, Outcome.bind_error_iff] at h
  rcases h with hloop | ⟨options, _, h⟩
  · exact parseLoop_error hloop
  rcases h with h | ⟨_, _, h | ⟨_, _, h | ⟨_, _, h | ⟨_, _, h⟩⟩⟩⟩
  · exact ⟨none, orEnv_error h⟩
  · exact ⟨none, orEnv_error h⟩
  · exact ⟨none, orEnv_error h⟩
  · exact ⟨none, orEnv_error h⟩
  · cases h

/-- What is wrong with a value that is there. -/
inductive Unusable (std : RustStd Addr) (texts : String × String × String × String) : Exit → Prop
  | listen {e : String} : std.parseAddr texts.1 = .error e →
      Unusable std texts (.failure s!"invalid listen addr {std.debug texts.1}: {e}")
  | secretkey {addr : Addr} {e : Exit} : std.parseAddr texts.1 = .ok addr →
      parseKeyArg texts.2.2.2 = .error e → Unusable std texts e

/-- From complete settings the process starts or names the first value it cannot use. -/
theorem parseArgs_of_settings {args : List String} {texts : String × String × String × String}
    (h : settings env args = .ok texts) :
    (∃ addr key, std.parseAddr texts.1 = .ok addr ∧ parseKeyArg texts.2.2.2 = .ok key ∧
        parseArgs std env args = .ok (addr, texts.2.1, texts.2.2.1, key)) ∨
      ∃ e, Unusable std texts e ∧ parseArgs std env args = .error (.exit e) := by
  obtain ⟨listenS, url, redis, keyHex⟩ := texts
  cases haddr : std.parseAddr listenS with
  | error e =>
      refine Or.inr ⟨_, .listen haddr, ?_⟩
      rw [parseArgs, h]
      show (parseListen std listenS >>= _) = _
      rw [parseListen, haddr]
      rfl
  | ok addr =>
      have hlisten : parseListen std listenS = .ok addr := by
        rw [parseListen, haddr]
      cases hkey : parseKeyArg keyHex with
      | error e =>
          refine Or.inr ⟨e, .secretkey haddr hkey, ?_⟩
          rw [parseArgs, h]
          show (parseListen std listenS >>= _) = _
          rw [hlisten]
          show ((parseKeyArg keyHex).mapError Ending.exit >>= _) = _
          rw [hkey]
          rfl
      | ok key =>
          refine Or.inl ⟨addr, key, rfl, rfl, ?_⟩
          rw [parseArgs, h]
          show (parseListen std listenS >>= _) = _
          rw [hlisten]
          show ((parseKeyArg keyHex).mapError Ending.exit >>= _) = _
          rw [hkey]
          rfl

/-- One end of the process for each unusable value. -/
theorem Unusable.unique {texts : String × String × String × String} {e e' : Exit}
    (h : Unusable std texts e) (h' : Unusable std texts e') : e = e' := by
  cases h with
  | listen haddr =>
      cases h' with
      | listen haddr' => rw [Except.error.inj (haddr.symm.trans haddr')]
      | secretkey haddr' _ => cases haddr.symm.trans haddr'
  | secretkey haddr hkey =>
      cases h' with
      | listen haddr' => cases haddr.symm.trans haddr'
      | secretkey _ hkey' => exact Except.error.inj (hkey.symm.trans hkey')

theorem Unusable.not_usable {texts : String × String × String × String} {e : Exit}
    (h : Unusable std texts e) {addr : Addr} {key : Key} (haddr : std.parseAddr texts.1 = .ok addr)
    (hkey : parseKeyArg texts.2.2.2 = .ok key) : False := by
  cases h with
  | listen haddr' => cases haddr.symm.trans haddr'
  | secretkey _ hkey' => cases hkey.symm.trans hkey'

/-- **The command line is read by its grammar.**  The proxy starts exactly when
the arguments are options, every setting is given there or in the environment,
the address parses and the key is one; it answers the usage text exactly when
the settings are not all there; and otherwise it names the first of the two
values that is unusable. -/
theorem parseArgs_exact {Addr : Type} (std : RustStd Addr) (env : String → Option String)
    (args : List String) :
    (∀ listen url redis key, parseArgs std env args = .ok (listen, url, redis, key) ↔
      ∃ listenS keyHex, Given env args (listenS, url, redis, keyHex) ∧
        std.parseAddr listenS = .ok listen ∧ parseKeyArg keyHex = .ok key) ∧
    ((∃ unknown, parseArgs std env args = .error (.usage unknown)) ↔
      ∀ texts, ¬ Given env args texts) ∧
    (∀ e, parseArgs std env args = .error (.exit e) ↔
      ∃ texts, Given env args texts ∧ Unusable std texts e) := by
  cases hsettings : settings env args with
  | error e =>
      obtain ⟨unknown, rfl⟩ := settings_error hsettings
      have hnone : ∀ texts, ¬ Given env args texts := by
        intro texts hgiven
        cases hsettings.symm.trans (settings_ok_iff.mpr hgiven)
      have hparse : parseArgs std env args = .error (.usage unknown) := by
        rw [parseArgs, hsettings]
        rfl
      rw [hparse]
      refine ⟨?_, ?_, ?_⟩
      · intro listen url redis key
        refine iff_of_false (by nofun) ?_
        rintro ⟨_, _, hgiven, _⟩
        exact hnone _ hgiven
      · exact iff_of_true ⟨unknown, rfl⟩ hnone
      · intro e
        refine iff_of_false (by nofun) ?_
        rintro ⟨texts, hgiven, _⟩
        exact hnone _ hgiven
  | ok texts =>
      have hgiven := settings_ok_iff.mp hsettings
      have hunique : ∀ texts', Given env args texts' → texts' = texts := fun texts' h =>
        Except.ok.inj ((settings_ok_iff.mpr h).symm.trans hsettings)
      rcases @parseArgs_of_settings Addr std env args texts hsettings with
        ⟨addr, key, haddr, hkey, hparse⟩ | ⟨e, hunusable, hparse⟩
      · rw [hparse]
        refine ⟨?_, ?_, ?_⟩
        · intro listen url redis key'
          constructor
          · intro h
            obtain ⟨rfl, rfl, rfl, rfl⟩ :
                addr = listen ∧ texts.2.1 = url ∧ texts.2.2.1 = redis ∧ key = key' := by
              simpa using Except.ok.inj h
            exact ⟨texts.1, texts.2.2.2, hgiven, haddr, hkey⟩
          · rintro ⟨listenS, keyHex, hgiven', haddr', hkey'⟩
            obtain rfl := hunique _ hgiven'
            obtain rfl := Except.ok.inj (haddr.symm.trans haddr')
            obtain rfl := Except.ok.inj (hkey.symm.trans hkey')
            rfl
        · exact iff_of_false (by rintro ⟨_, h⟩; cases h) fun h => h texts hgiven
        · intro e
          refine iff_of_false (by nofun) ?_
          rintro ⟨texts', hgiven', hunusable⟩
          obtain rfl := hunique _ hgiven'
          exact hunusable.not_usable haddr hkey
      · rw [hparse]
        refine ⟨?_, ?_, ?_⟩
        · intro listen url redis key
          refine iff_of_false (by nofun) ?_
          rintro ⟨listenS, keyHex, hgiven', haddr, hkey⟩
          obtain rfl := hunique _ hgiven'
          exact hunusable.not_usable haddr hkey
        · exact iff_of_false (by rintro ⟨_, h⟩; cases h) fun h => h texts hgiven
        · intro e'
          constructor
          · intro h
            obtain rfl : e = e' := Ending.exit.inj (Except.error.inj h)
            exact ⟨texts, hgiven, hunusable⟩
          · rintro ⟨texts', hgiven', hunusable'⟩
            obtain rfl := hunique _ hgiven'
            rw [hunusable.unique hunusable']

end

end Proto4.PromProxy
