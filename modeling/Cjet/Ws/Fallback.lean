import Cjet.Lib.Text
import Cjet.Ws.Offer

/-!
# Offers after declined ones

* `ExtensionCompression.write`   what a parameter does to the settings;
* `leftBehind`                what an element leaves there when it is declined;
* `negotiate_declined`     the settings after elements which are all declined;
* `Harmless`               a parameter left behind that makes no difference for the element that is accepted;
* `negotiation_alone_iff`  the result is the one of that element alone exactly where all of them are.
-/

set_option linter.unusedVariables false

namespace Cjet
namespace Websocket

/-! ## header lines -/

/-- the headers `Sec-WebSocket-Extensions` of a request, each value with the memory behind it -/
def readExtensions (s : ExtensionCompression) (lines : List (List UInt8 × List UInt8)) : ExtensionCompression :=
  lines.foldl (fun s line => checkWebsocketExtensions s line.1 line.2) s

/-- the elements of all of them -/
def offeredElements (lines : List (List UInt8 × List UInt8)) : List (List UInt8 × List UInt8) :=
  lines.flatMap fun line => extensionElements line.1 line.2

/-- the elements one after the other -/
def negotiate (s : ExtensionCompression) (elements : List (List UInt8 × List UInt8)) : ExtensionCompression :=
  elements.foldl (fun s e => fillRequestedExtension s e.1 e.2) s

theorem negotiate_append (s : ExtensionCompression) (a b : List (List UInt8 × List UInt8)) :
    negotiate s (a ++ b) = negotiate (negotiate s a) b := List.foldl_append

theorem readExtensions_eq (s : ExtensionCompression) (lines : List (List UInt8 × List UInt8)) :
    readExtensions s lines = negotiate s (offeredElements lines) := by
  induction lines generalizing s with
  | nil => rfl
  | cons line lines ih =>
    have hcons : offeredElements (line :: lines) = extensionElements line.1 line.2 ++ offeredElements lines := rfl
    rw [hcons, negotiate_append]
    exact ih _

/-- an element is followed by a comma or by what is behind the line -/
theorem bounded_of_mem {value behind : List UInt8} (hbehind : Bounded behind) {e : List UInt8 × List UInt8}
    (h : e ∈ extensionElements value behind) : Bounded e.2 := by
  induction value, behind using extensionElements.induct with
  | case1 behind =>
    rw [extensionElements] at h
    cases h
  | case2 c rest behind hskip ih =>
    rw [extensionElements, if_pos hskip] at h
    exact ih hbehind h
  | case3 c rest behind hskip ih =>
    rw [extensionElements, if_neg hskip] at h
    rcases List.mem_cons.mp h with rfl | h
    · cases hdrop : rest.dropWhile (· ≠ comma) with
      | nil => exact hbehind
      | cons d after =>
        have hd := List.head?_dropWhile_not (· ≠ comma) rest
        rw [hdrop] at hd
        have hd : d = comma := by simpa using hd
        subst hd
        exact ⟨show comma ≠ equals by decide, show comma ≠ 49 by decide⟩
    · exact ih hbehind h

theorem bounded_offered {lines : List (List UInt8 × List UInt8)} (hlines : ∀ line ∈ lines, Bounded line.2)
    {e : List UInt8 × List UInt8} (h : e ∈ offeredElements lines) : Bounded e.2 := by
  obtain ⟨line, hline, he⟩ := List.mem_flatMap.mp h
  exact bounded_of_mem (hlines line hline) he

/-! ## what a parameter does to the settings -/

namespace ExtensionCompression

def write (s : ExtensionCompression) (p : Parameter) : ExtensionCompression :=
  match p.name with
  | .clientMaxWindowBits =>
    { s with clientMaxWindowBits := min s.clientMaxWindowBits (p.bits.getD s.clientMaxWindowBits) }
  | .serverMaxWindowBits =>
    { s with serverMaxWindowBits := min s.serverMaxWindowBits (p.bits.getD s.serverMaxWindowBits) }
  | .clientNoContextTakeover => { s with clientNoContextTakeover := true }
  | .serverNoContextTakeover => { s with serverNoContextTakeover := true }

def writeAll (s : ExtensionCompression) (ps : List Parameter) : ExtensionCompression := ps.foldl write s

/-- the settings without the response -/
def settings (s : ExtensionCompression) : ExtensionCompression := { s with response := none }

/-- the limit of a window -/
def maxBits (s : ExtensionCompression) : ParameterName → Nat
  | .clientMaxWindowBits => s.clientMaxWindowBits
  | .serverMaxWindowBits => s.serverMaxWindowBits
  | _ => 0

/-- a flag -/
def takeover (s : ExtensionCompression) : ParameterName → Bool
  | .clientNoContextTakeover => s.clientNoContextTakeover
  | .serverNoContextTakeover => s.serverNoContextTakeover
  | _ => false

theorem settings_write (s : ExtensionCompression) (p : Parameter) : (s.write p).settings = s.settings.write p := by
  obtain ⟨name, bits⟩ := p
  cases name with
  | clientMaxWindowBits => rfl
  | serverMaxWindowBits => rfl
  | clientNoContextTakeover => rfl
  | serverNoContextTakeover => rfl

theorem settings_writeAll (s : ExtensionCompression) (ps : List Parameter) :
    (s.writeAll ps).settings = s.settings.writeAll ps := by
  induction ps generalizing s with
  | nil => rfl
  | cons p ps ih => exact (ih (s.write p)).trans (congrArg (writeAll · ps) (settings_write s p))

theorem writeAll_append (s : ExtensionCompression) (a b : List Parameter) :
    s.writeAll (a ++ b) = (s.writeAll a).writeAll b := List.foldl_append

theorem maxBits_write_of_ne {name : ParameterName} {p : Parameter} (h : name ≠ p.name) (s : ExtensionCompression) :
    (s.write p).maxBits name = s.maxBits name := by
  obtain ⟨m, bits⟩ := p
  cases m <;> cases name <;> first | rfl | exact absurd rfl h

theorem maxBits_write {p : Parameter} (hwindow : p.name.window = true) (s : ExtensionCompression) :
    (s.write p).maxBits p.name = min (s.maxBits p.name) (p.bits.getD (s.maxBits p.name)) := by
  obtain ⟨m, bits⟩ := p
  cases m with
  | clientMaxWindowBits => rfl
  | serverMaxWindowBits => rfl
  | clientNoContextTakeover => cases hwindow
  | serverNoContextTakeover => cases hwindow

theorem maxBits_write_lt {name : ParameterName} (hwindow : name.window = true)
    (s : ExtensionCompression) (p : Parameter)
    (x : Nat) : (s.write p).maxBits name < x ↔ s.maxBits name < x ∨ ∃ bits, p = ⟨name, some bits⟩ ∧ bits < x := by
  obtain ⟨m, bits⟩ := p
  by_cases hm : m = name
  · subst hm
    have hwrite : (s.write ⟨m, bits⟩).maxBits m = min (s.maxBits m) (bits.getD (s.maxBits m)) := maxBits_write hwindow s
    rw [hwrite]
    cases bits with
    | none =>
      rw [Option.getD_none, Nat.min_self]
      refine (or_iff_left ?_).symm
      rintro ⟨bits, h, -⟩
      cases h
    | some bits =>
      rw [Option.getD_some]
      constructor
      · intro h
        by_cases hlt : bits < x
        · exact Or.inr ⟨bits, rfl, hlt⟩
        · exact Or.inl (by omega)
      · rintro (h | ⟨bits', h, hlt⟩)
        · omega
        · cases h
          omega
  · rw [maxBits_write_of_ne (fun h => hm h.symm)]
    refine (or_iff_left ?_).symm
    rintro ⟨bits', h, -⟩
    exact hm (congrArg Parameter.name h)

/-- a limit is the least one of those that have been written -/
theorem maxBits_lt {name : ParameterName} (hwindow : name.window = true)
    (s : ExtensionCompression) (ps : List Parameter)
    (x : Nat) :
    (s.writeAll ps).maxBits name < x ↔ s.maxBits name < x ∨ ∃ bits, ⟨name, some bits⟩ ∈ ps ∧ bits < x := by
  induction ps generalizing s with
  | nil => exact (or_iff_left fun ⟨_, h, _⟩ => by cases h).symm
  | cons p ps ih =>
    have hcons : s.writeAll (p :: ps) = (s.write p).writeAll ps := rfl
    rw [hcons, ih, maxBits_write_lt hwindow, or_assoc]
    refine or_congr_right ?_
    constructor
    · rintro (⟨bits, rfl, hlt⟩ | ⟨bits, hmem, hlt⟩)
      · exact ⟨bits, List.mem_cons_self, hlt⟩
      · exact ⟨bits, List.mem_cons_of_mem _ hmem, hlt⟩
    · rintro ⟨bits, hmem, hlt⟩
      rcases List.mem_cons.mp hmem with h | h
      · exact Or.inl ⟨bits, h.symm, hlt⟩
      · exact Or.inr ⟨bits, h, hlt⟩

theorem takeover_write {name : ParameterName} (hwindow : name.window = false)
    (s : ExtensionCompression) (p : Parameter) :
    (s.write p).takeover name = true ↔ s.takeover name = true ∨ name = p.name := by
  obtain ⟨m, bits⟩ := p
  by_cases hm : name = m
  · subst hm
    refine iff_of_true ?_ (Or.inr rfl)
    cases name with
    | clientMaxWindowBits => cases hwindow
    | serverMaxWindowBits => cases hwindow
    | clientNoContextTakeover => rfl
    | serverNoContextTakeover => rfl
  · have hwrite : (s.write ⟨m, bits⟩).takeover name = s.takeover name := by
      cases m <;> cases name <;> first | rfl | exact absurd rfl hm
    rw [hwrite]
    exact (or_iff_left hm).symm

/-- a flag is set once it has been written -/
theorem takeover_iff {name : ParameterName} (hwindow : name.window = false) (s : ExtensionCompression)
    (ps : List Parameter) :
    (s.writeAll ps).takeover name = true ↔ s.takeover name = true ∨ name ∈ ps.map Parameter.name := by
  induction ps generalizing s with
  | nil => exact (or_iff_left List.not_mem_nil).symm
  | cons p ps ih =>
    have hcons : s.writeAll (p :: ps) = (s.write p).writeAll ps := rfl
    rw [hcons, ih, takeover_write hwindow, List.map_cons, List.mem_cons, or_assoc]

end ExtensionCompression

/-! ## declined elements -/

/-- the parameters of an element -/
def asked (element : List UInt8) : List Parameter := (reading [] (tokensAfter element)).1

/-- what an element writes into the settings: its parameters up to the one at which it is declined; nothing if it has
another name or too many of them -/
def leftBehind (element : List UInt8) : List Parameter :=
  if Named element ∧ (tokensAfter element).length < 5 then asked element else []

theorem fillRequestedExtension_accepted {s : ExtensionCompression} (h : s.accepted = true)
    (element behind : List UInt8) :
    fillRequestedExtension s element behind = s := by
  unfold fillRequestedExtension
  rw [if_pos (Or.inl h)]

theorem fillRequestedExtension_level_zero {s : ExtensionCompression} (h : s.compressionLevel = 0)
    (element behind : List UInt8) : fillRequestedExtension s element behind = s := by
  unfold fillRequestedExtension
  rw [if_pos (Or.inr h)]

theorem negotiate_accepted {s : ExtensionCompression} (h : s.accepted = true)
    (elements : List (List UInt8 × List UInt8)) :
    negotiate s elements = s := by
  induction elements with
  | nil => rfl
  | cons e elements ih =>
    show negotiate (fillRequestedExtension s e.1 e.2) elements = s
    rw [fillRequestedExtension_accepted h, ih]

theorem negotiate_level_zero {s : ExtensionCompression} (h : s.compressionLevel = 0)
    (elements : List (List UInt8 × List UInt8)) : negotiate s elements = s := by
  induction elements with
  | nil => rfl
  | cons e elements ih =>
    show negotiate (fillRequestedExtension s e.1 e.2) elements = s
    rw [fillRequestedExtension_level_zero h, ih]

theorem apply_s (n : Negotiation) (p : Parameter) : (n.apply p).s = n.s.write p := by
  obtain ⟨name, bits⟩ := p
  cases name with
  | clientMaxWindowBits => rfl
  | serverMaxWindowBits => rfl
  | clientNoContextTakeover => rfl
  | serverNoContextTakeover => rfl

theorem foldl_apply_s (ps : List Parameter) (n : Negotiation) : (ps.foldl Negotiation.apply n).s = n.s.writeAll ps := by
  induction ps generalizing n with
  | nil => rfl
  | cons p ps ih =>
    rw [List.foldl_cons, ih, apply_s]
    rfl

theorem write_accepted (s : ExtensionCompression) (p : Parameter) :
    (s.write p).accepted = s.accepted ∧ (s.write p).compressionLevel = s.compressionLevel := by
  obtain ⟨name, bits⟩ := p
  cases name with
  | clientMaxWindowBits => exact ⟨rfl, rfl⟩
  | serverMaxWindowBits => exact ⟨rfl, rfl⟩
  | clientNoContextTakeover => exact ⟨rfl, rfl⟩
  | serverNoContextTakeover => exact ⟨rfl, rfl⟩

theorem writeAll_accepted (s : ExtensionCompression) (ps : List Parameter) :
    (s.writeAll ps).accepted = s.accepted ∧ (s.writeAll ps).compressionLevel = s.compressionLevel := by
  induction ps generalizing s with
  | nil => exact ⟨rfl, rfl⟩
  | cons p ps ih =>
    have hp := write_accepted s p
    have hps := ih (s.write p)
    exact ⟨hps.1.trans hp.1, hps.2.trans hp.2⟩

/-- what a declined element leaves behind -/
theorem fillRequestedExtension_declined {s : ExtensionCompression} (haccepted : s.accepted = false)
    (hlevel : s.compressionLevel ≠ 0) (element : List UInt8) {behind : List UInt8} (hbehind : Bounded behind)
    (h : (fillRequestedExtension s element behind).accepted = false) :
    (fillRequestedExtension s element behind).settings = s.settings.writeAll (leftBehind element) := by
  rw [fillRequestedExtension_eq haccepted hlevel element hbehind] at h ⊢
  dsimp only at h ⊢
  unfold leftBehind asked
  by_cases hnamed : Named element ∧ (tokensAfter element).length < 5
  · rw [if_pos hnamed] at h ⊢
    rw [if_pos hnamed]
    cases hcomplete : (reading [] (tokensAfter element)).2 with
    | true =>
      rw [hcomplete, if_pos rfl] at h
      cases h
    | false =>
      rw [if_neg (by decide), ← ExtensionCompression.settings_writeAll]
      show (List.foldl Negotiation.apply (Negotiation.start s) _).s.settings = _
      rw [foldl_apply_s]
      rfl
  · rw [if_neg hnamed, if_neg hnamed]
    rfl

theorem level_of_settings {s t : ExtensionCompression} {ps : List Parameter} (h : t.settings = s.settings.writeAll ps) :
    t.compressionLevel = s.compressionLevel :=
  (congrArg ExtensionCompression.compressionLevel h).trans (writeAll_accepted s.settings ps).2

/-- Elements that are all declined leave behind what each of them has written. -/
theorem negotiate_declined {s : ExtensionCompression} (hlevel : s.compressionLevel ≠ 0)
    (elements : List (List UInt8 × List UInt8)) (hbehind : ∀ e ∈ elements, Bounded e.2)
    (h : (negotiate s elements).accepted = false) :
    (negotiate s elements).settings = s.settings.writeAll (elements.flatMap fun e => leftBehind e.1) := by
  induction elements generalizing s with
  | nil => rfl
  | cons e elements ih =>
    have hcons : negotiate s (e :: elements) = negotiate (fillRequestedExtension s e.1 e.2) elements := rfl
    rw [hcons] at h ⊢
    have haccepted : s.accepted = false := by
      cases hs : s.accepted with
      | false => rfl
      | true =>
        rw [fillRequestedExtension_accepted hs, negotiate_accepted hs, hs] at h
        cases h
    have hdeclined : (fillRequestedExtension s e.1 e.2).accepted = false := by
      cases hs : (fillRequestedExtension s e.1 e.2).accepted with
      | false => rfl
      | true =>
        rw [negotiate_accepted hs, hs] at h
        cases h
    have hstep := fillRequestedExtension_declined haccepted hlevel e.1 (hbehind e List.mem_cons_self) hdeclined
    rw [ih (by rw [level_of_settings hstep]; exact hlevel) (fun e he => hbehind e (List.mem_cons_of_mem _ he)) h, hstep,
      List.flatMap_cons, ExtensionCompression.writeAll_append]

/-! ## the accepted element -/

theorem apply_response (n : Negotiation) (p : Parameter) :
    (n.apply p).response = writeToResponse p.name.text ((n.s.write p).maxBits p.name) n.response := by
  obtain ⟨name, bits⟩ := p
  cases name with
  | clientMaxWindowBits => rfl
  | serverMaxWindowBits => rfl
  | clientNoContextTakeover => rfl
  | serverNoContextTakeover => rfl

theorem foldl_offered (ps : List Parameter) (n : Negotiation) (name : ParameterName) :
    (ps.foldl Negotiation.apply n).offered name = (n.offered name || decide (name ∈ ps.map Parameter.name)) := by
  induction ps generalizing n with
  | nil => exact (Bool.or_false _).symm
  | cons p ps ih =>
    rw [List.foldl_cons, ih, Negotiation.offered_apply, Bool.or_assoc, ← Bool.decide_or]
    refine congrArg _ (decide_eq_decide.mpr ?_)
    rw [List.map_cons, List.mem_cons, eq_comm]

theorem maxBits_of_notMem {ps : List Parameter} {name : ParameterName} (h : name ∉ ps.map Parameter.name)
    (s : ExtensionCompression) : (s.writeAll ps).maxBits name = s.maxBits name := by
  induction ps generalizing s with
  | nil => rfl
  | cons p ps ih =>
    rw [List.map_cons, List.mem_cons, not_or] at h
    exact (ih h.2 (s.write p)).trans (ExtensionCompression.maxBits_write_of_ne h.1 s)

/-- The values in the response are those of the settings in the end: no parameter is there twice. -/
theorem foldl_response {ps : List Parameter} (hnodup : (ps.map Parameter.name).Nodup) (n : Negotiation) :
    (ps.foldl Negotiation.apply n).response
      = (ps.map Parameter.name).foldl (fun r name => writeToResponse name.text ((n.s.writeAll ps).maxBits name) r)
          n.response := by
  induction ps generalizing n with
  | nil => rfl
  | cons p ps ih =>
    rw [List.map_cons, List.nodup_cons] at hnodup
    have hp : (n.s.writeAll (p :: ps)).maxBits p.name = (n.s.write p).maxBits p.name := maxBits_of_notMem hnodup.1 _
    rw [List.foldl_cons, ih hnodup.2, List.map_cons, List.foldl_cons, apply_s, apply_response, hp]
    rfl

theorem response_congr {ps : List Parameter} (hnodup : (ps.map Parameter.name).Nodup) {n m : Negotiation}
    (hresponse : n.response = m.response)
    (hbits : ∀ name ∈ ps.map Parameter.name, (n.s.writeAll ps).maxBits name = (m.s.writeAll ps).maxBits name) :
    (ps.foldl Negotiation.apply n).response = (ps.foldl Negotiation.apply m).response := by
  rw [foldl_response hnodup, foldl_response hnodup, hresponse]
  exact List.foldl_ext _ _ _ fun r name hname => by rw [hbits name hname]

theorem acceptExtension_client (n : Negotiation) : (acceptExtension n).clientMaxWindowBits
    = if n.offered .clientMaxWindowBits then n.s.maxBits .clientMaxWindowBits else 15 := by
  show (if n.clientOfferedCMaxWindow then n.s else { n.s with clientMaxWindowBits := 15 }).clientMaxWindowBits
    = if n.clientOfferedCMaxWindow then n.s.clientMaxWindowBits else 15
  split
  · rfl
  · rfl

theorem acceptExtension_server (n : Negotiation) :
    (acceptExtension n).serverMaxWindowBits = n.s.maxBits .serverMaxWindowBits := by
  show (if n.clientOfferedCMaxWindow then n.s else { n.s with clientMaxWindowBits := 15 }).serverMaxWindowBits
    = n.s.serverMaxWindowBits
  split
  · rfl
  · rfl

theorem acceptExtension_takeover (n : Negotiation) (name : ParameterName) :
    (acceptExtension n).takeover name = n.s.takeover name := by
  have hs : (if n.clientOfferedCMaxWindow then n.s else { n.s with clientMaxWindowBits := 15 }).takeover name
      = n.s.takeover name := by
    split
    · rfl
    · cases name <;> rfl
  rw [← hs]
  cases name <;> rfl

/-- two negotiations with the same parameters end alike if the settings that count are the same -/
theorem acceptExtension_eq_iff {n m : Negotiation} (hlevel : n.s.compressionLevel = m.s.compressionLevel)
    (hoffered : ∀ name, n.offered name = m.offered name)
    (hresponse : (∀ name, n.offered name = true → n.s.maxBits name = m.s.maxBits name) → n.response = m.response) :
    acceptExtension n = acceptExtension m ↔
      (∀ name, (name = .clientMaxWindowBits → n.offered name = true) → n.s.maxBits name = m.s.maxBits name) ∧
        ∀ name, n.s.takeover name = m.s.takeover name := by
  constructor
  · intro h
    refine ⟨fun name hname => ?_, fun name => ?_⟩
    · cases name with
      | clientMaxWindowBits =>
        have hclient := congrArg ExtensionCompression.clientMaxWindowBits h
        rw [acceptExtension_client, acceptExtension_client, ← hoffered, hname rfl, if_pos rfl, if_pos rfl] at hclient
        exact hclient
      | serverMaxWindowBits =>
        have hserver := congrArg ExtensionCompression.serverMaxWindowBits h
        rwa [acceptExtension_server, acceptExtension_server] at hserver
      | clientNoContextTakeover => rfl
      | serverNoContextTakeover => rfl
    · rw [← acceptExtension_takeover n, ← acceptExtension_takeover m, h]
  · rintro ⟨hbits, htakeover⟩
    have hresponse := hresponse fun name hname => hbits name fun _ => hname
    have hclient := hoffered .clientMaxWindowBits
    have hserver := hoffered .serverMaxWindowBits
    have hctake := hoffered .clientNoContextTakeover
    have hstake := hoffered .serverNoContextTakeover
    have hcbits := hbits .clientMaxWindowBits
    have hsbits := hbits .serverMaxWindowBits nofun
    have hcflag := htakeover .clientNoContextTakeover
    have hsflag := htakeover .serverNoContextTakeover
    clear hbits htakeover hoffered
    obtain ⟨⟨level, cbits, sbits, cflag, sflag, response, accepted⟩, text, o1, o2, o3, o4⟩ := n
    obtain ⟨⟨level', cbits', sbits', cflag', sflag', response', accepted'⟩, text', o1', o2', o3', o4'⟩ := m
    dsimp only [Negotiation.offered, ExtensionCompression.maxBits, ExtensionCompression.takeover] at *
    subst hlevel hresponse hclient hserver hctake hstake hsbits hcflag hsflag
    cases o1 with
    | false => rfl
    | true =>
      obtain rfl := hcbits fun _ => rfl
      rfl

/-! ## what makes a difference -/

/-- A parameter left behind makes no difference to an element with these parameters: the limit is as low already, or the
element asks for one as low; the flag is set already, or the element asks for it.  The limit of the client does not count
either where the element does not mention it. -/
def Harmless (s : ExtensionCompression) (ps : List Parameter) (p : Parameter) : Prop :=
  if p.name.window then
    ∀ bits, p.bits = some bits → (p.name = .clientMaxWindowBits → p.name ∈ ps.map Parameter.name) →
      s.maxBits p.name ≤ bits ∨ ∃ b, ⟨p.name, some b⟩ ∈ ps ∧ b ≤ bits
  else s.takeover p.name = true ∨ p.name ∈ ps.map Parameter.name

/-- A parameter changes nothing in the settings. -/
def Idle (s : ExtensionCompression) (p : Parameter) : Prop :=
  if p.name.window then ∀ bits, p.bits = some bits → s.maxBits p.name ≤ bits else s.takeover p.name = true

/-- a limit is the same with and without what has been left behind -/
theorem maxBits_eq_iff {name : ParameterName} (hwindow : name.window = true) (s : ExtensionCompression)
    (left ps : List Parameter) :
    (s.writeAll (left ++ ps)).maxBits name = (s.writeAll ps).maxBits name ↔
      ∀ bits, ⟨name, some bits⟩ ∈ left → s.maxBits name ≤ bits ∨ ∃ b, ⟨name, some b⟩ ∈ ps ∧ b ≤ bits := by
  have hboth := ExtensionCompression.maxBits_lt hwindow s (left ++ ps)
  have hone := ExtensionCompression.maxBits_lt hwindow s ps
  constructor
  · intro heq bits hmem
    have hlt := (hboth (bits + 1)).mpr (Or.inr ⟨bits, List.mem_append_left _ hmem, Nat.lt_succ_self bits⟩)
    rw [heq, hone] at hlt
    rcases hlt with h | ⟨b, hb, h⟩
    · exact Or.inl (Nat.le_of_lt_succ h)
    · exact Or.inr ⟨b, hb, Nat.le_of_lt_succ h⟩
  · intro hharmless
    refine Nat.le_antisymm ?_ ?_
    · have hlt := (hone _).mp (Nat.lt_succ_self _)
      refine Nat.le_of_lt_succ ((hboth _).mpr ?_)
      rcases hlt with h | ⟨b, hb, h⟩
      · exact Or.inl h
      · exact Or.inr ⟨b, List.mem_append_right _ hb, h⟩
    · have hlt := (hboth _).mp (Nat.lt_succ_self _)
      refine Nat.le_of_lt_succ ((hone _).mpr ?_)
      rcases hlt with h | ⟨bits, hmem, h⟩
      · exact Or.inl h
      · rcases List.mem_append.mp hmem with hleft | hps
        · rcases hharmless bits hleft with hle | ⟨b, hb, hle⟩
          · exact Or.inl (Nat.lt_of_le_of_lt hle h)
          · exact Or.inr ⟨b, hb, Nat.lt_of_le_of_lt hle h⟩
        · exact Or.inr ⟨bits, hps, h⟩

/-- a flag is the same with and without what has been left behind -/
theorem takeover_eq_iff {name : ParameterName} (hwindow : name.window = false) (s : ExtensionCompression)
    (left ps : List Parameter) :
    (s.writeAll (left ++ ps)).takeover name = (s.writeAll ps).takeover name ↔
      (name ∈ left.map Parameter.name → s.takeover name = true ∨ name ∈ ps.map Parameter.name) := by
  rw [Bool.eq_iff_iff, ExtensionCompression.takeover_iff hwindow,
    ExtensionCompression.takeover_iff hwindow, List.map_append,
    List.mem_append]
  constructor
  · intro h hleft
    exact h.mp (Or.inr (Or.inl hleft))
  · intro h
    constructor
    · rintro (hs | hleft | hps)
      · exact Or.inl hs
      · exact h hleft
      · exact Or.inr hps
    · rintro (hs | hps)
      · exact Or.inl hs
      · exact Or.inr (Or.inr hps)

theorem maxBits_of_takeover {name : ParameterName} (hwindow : name.window = false) (s : ExtensionCompression) :
    s.maxBits name = 0 := by
  cases name with
  | clientMaxWindowBits => cases hwindow
  | serverMaxWindowBits => cases hwindow
  | clientNoContextTakeover => rfl
  | serverNoContextTakeover => rfl

theorem takeover_of_window {name : ParameterName} (hwindow : name.window = true) (s : ExtensionCompression) :
    s.takeover name = false := by
  cases name with
  | clientMaxWindowBits => rfl
  | serverMaxWindowBits => rfl
  | clientNoContextTakeover => cases hwindow
  | serverNoContextTakeover => cases hwindow

/-- the settings that count are the same exactly if everything left behind is harmless -/
theorem harmless_iff (s : ExtensionCompression) (left ps : List Parameter) :
    (∀ p ∈ left, Harmless s ps p) ↔
      (∀ name, (name = .clientMaxWindowBits → name ∈ ps.map Parameter.name) →
        (s.writeAll (left ++ ps)).maxBits name = (s.writeAll ps).maxBits name) ∧
      ∀ name, (s.writeAll (left ++ ps)).takeover name = (s.writeAll ps).takeover name := by
  constructor
  · intro h
    refine ⟨fun name hname => ?_, fun name => ?_⟩
    · cases hwindow : name.window with
      | true =>
        refine (maxBits_eq_iff hwindow s left ps).mpr fun bits hmem => ?_
        have hp := h _ hmem
        unfold Harmless at hp
        rw [if_pos hwindow] at hp
        exact hp bits rfl hname
      | false => rw [maxBits_of_takeover hwindow, maxBits_of_takeover hwindow]
    · cases hwindow : name.window with
      | true => rw [takeover_of_window hwindow, takeover_of_window hwindow]
      | false =>
        refine (takeover_eq_iff hwindow s left ps).mpr fun hmem => ?_
        obtain ⟨p, hp, rfl⟩ := List.mem_map.mp hmem
        have hp := h p hp
        unfold Harmless at hp
        rwa [if_neg (by rw [hwindow]; decide)] at hp
  · rintro ⟨hbits, htakeover⟩ ⟨name, bits⟩ hp
    unfold Harmless
    cases hwindow : name.window with
    | true =>
      rw [if_pos rfl]
      rintro b rfl hname
      exact (maxBits_eq_iff hwindow s left ps).mp (hbits name hname) b hp
    | false =>
      rw [if_neg (by decide)]
      exact (takeover_eq_iff hwindow s left ps).mp (htakeover name) (List.mem_map_of_mem hp)

theorem idle_iff (s : ExtensionCompression) (left : List Parameter) :
    (∀ p ∈ left, Idle s p) ↔
      (∀ name, (s.writeAll left).maxBits name = s.maxBits name) ∧
      ∀ name, (s.writeAll left).takeover name = s.takeover name := by
  have hbits := fun (name : ParameterName) (hwindow : name.window = true) => maxBits_eq_iff hwindow s left []
  have htakeover := fun (name : ParameterName) (hwindow : name.window = false) => takeover_eq_iff hwindow s left []
  rw [List.append_nil] at hbits htakeover
  constructor
  · intro h
    refine ⟨fun name => ?_, fun name => ?_⟩
    · cases hwindow : name.window with
      | true =>
        refine (hbits name hwindow).mpr fun bits hmem => Or.inl ?_
        have hp := h _ hmem
        unfold Idle at hp
        rw [if_pos hwindow] at hp
        exact hp bits rfl
      | false => rw [maxBits_of_takeover hwindow, maxBits_of_takeover hwindow]
    · cases hwindow : name.window with
      | true => rw [takeover_of_window hwindow, takeover_of_window hwindow]
      | false =>
        refine (htakeover name hwindow).mpr fun hmem => Or.inl ?_
        obtain ⟨p, hp, rfl⟩ := List.mem_map.mp hmem
        have hp := h p hp
        unfold Idle at hp
        rwa [if_neg (by rw [hwindow]; decide)] at hp
  · rintro ⟨hsame, hflag⟩ ⟨name, bits⟩ hp
    unfold Idle
    cases hwindow : name.window with
    | true =>
      rw [if_pos rfl]
      rintro b rfl
      rcases (hbits name hwindow).mp (hsame name) b hp with h | ⟨_, h, _⟩
      · exact h
      · cases h
    | false =>
      rw [if_neg (by decide)]
      rcases (htakeover name hwindow).mp (hflag name) (List.mem_map_of_mem hp) with h | h
      · exact h
      · cases h

/-! ## the result of a negotiation -/

theorem reading_nodup (offered : List ParameterName) (tokens : List (List UInt8))
    (h : (reading offered tokens).2 = true) :
    ((reading offered tokens).1.map Parameter.name).Nodup :=
  ((reading_iff offered tokens _).mp (Prod.ext rfl h)).2.1

/-- an accepted element has all of its parameters applied -/
theorem fillRequestedExtension_taken {s : ExtensionCompression} (haccepted : s.accepted = false)
    (hlevel : s.compressionLevel ≠ 0) (element : List UInt8) {behind : List UInt8} (hbehind : Bounded behind)
    (h : (fillRequestedExtension s element behind).accepted = true) :
    ((asked element).map Parameter.name).Nodup ∧
      ∀ t : ExtensionCompression, t.accepted = false → t.compressionLevel ≠ 0 → ∀ memory, Bounded memory →
        fillRequestedExtension t element memory
          = acceptExtension ((asked element).foldl Negotiation.apply (Negotiation.start t)) := by
  rw [fillRequestedExtension_eq haccepted hlevel element hbehind] at h
  dsimp only at h
  have hkept : ((asked element).foldl Negotiation.apply (Negotiation.start s)).s.accepted = false := by
    rw [foldl_apply_s]
    exact (writeAll_accepted s _).1.trans haccepted
  by_cases hnamed : Named element ∧ (tokensAfter element).length < 5
  · rw [if_pos hnamed] at h
    cases hcomplete : (reading [] (tokensAfter element)).2 with
    | false =>
      rw [hcomplete, if_neg (by decide)] at h
      exact absurd (hkept.symm.trans h) (by decide)
    | true =>
      refine ⟨reading_nodup [] _ hcomplete, fun t ht htlevel memory hmemory => ?_⟩
      rw [fillRequestedExtension_eq ht htlevel element hmemory]
      dsimp only
      rw [if_pos hnamed, hcomplete, if_pos rfl]
      rfl
  · rw [if_neg hnamed, haccepted] at h
    cases h

/-- an element alone in a header line -/
theorem extensionElements_alone {value behind : List UInt8} {e : List UInt8 × List UInt8}
    (h : e ∈ extensionElements value behind)
    (memory : List UInt8) : extensionElements e.1 memory = [(e.1, memory)] := by
  induction value, behind using extensionElements.induct with
  | case1 behind =>
    rw [extensionElements] at h
    cases h
  | case2 c rest behind hskip ih =>
    rw [extensionElements, if_pos hskip] at h
    exact ih h
  | case3 c rest behind hskip ih =>
    rw [extensionElements, if_neg hskip] at h
    rcases List.mem_cons.mp h with rfl | h
    · have hc : c ≠ comma := fun hc => hskip (by rw [hc]; decide)
      have htake : (c :: rest).takeWhile (· ≠ comma) = c :: rest.takeWhile (· ≠ comma) :=
        List.takeWhile_cons_of_pos (by simpa using hc)
      have hno : comma ∉ rest.takeWhile (· ≠ comma) := fun hmem => by
        have := List.mem_takeWhile_imp hmem
        simp at this
      have hdrop : (rest.takeWhile (· ≠ comma)).dropWhile (· ≠ comma) = [] :=
        List.dropWhile_eq_nil_iff.mpr fun x hx => decide_eq_true fun e => hno (e ▸ hx)
      show extensionElements ((c :: rest).takeWhile (· ≠ comma)) memory = [((c :: rest).takeWhile (· ≠ comma), memory)]
      rw [htake, extensionElements, if_neg hskip, hdrop, extensionElements, List.nil_append,
        List.takeWhile_cons_of_pos (by simpa using hc), Stateful.Text.takeWhile_of_notMem hno]
    · exact ih h

theorem init_fresh {compressionLevel : Nat} {s : ExtensionCompression}
    (h : ExtensionCompression.init compressionLevel = some s) : s.accepted = false := by
  unfold ExtensionCompression.init at h
  split at h
  all_goals cases h
  all_goals rfl

theorem maxBits_settings (s : ExtensionCompression) (name : ParameterName) :
    s.settings.maxBits name = s.maxBits name := by
  cases name with
  | clientMaxWindowBits => rfl
  | serverMaxWindowBits => rfl
  | clientNoContextTakeover => rfl
  | serverNoContextTakeover => rfl

theorem takeover_settings (s : ExtensionCompression) (name : ParameterName) :
    s.settings.takeover name = s.takeover name := by
  cases name with
  | clientMaxWindowBits => rfl
  | serverMaxWindowBits => rfl
  | clientNoContextTakeover => rfl
  | serverNoContextTakeover => rfl

theorem settings_eq_iff {s t : ExtensionCompression} (hlevel : t.compressionLevel = s.compressionLevel)
    (haccepted : t.accepted = s.accepted) :
    t.settings = s.settings ↔ (∀ name, t.maxBits name = s.maxBits name) ∧
      ∀ name, t.takeover name = s.takeover name := by
  constructor
  · intro h
    exact ⟨fun name => by rw [← maxBits_settings t, h, maxBits_settings],
      fun name => by rw [← takeover_settings t, h, takeover_settings]⟩
  · rintro ⟨hbits, htakeover⟩
    have hcbits : t.clientMaxWindowBits = s.clientMaxWindowBits := hbits .clientMaxWindowBits
    have hsbits : t.serverMaxWindowBits = s.serverMaxWindowBits := hbits .serverMaxWindowBits
    have hcflag : t.clientNoContextTakeover = s.clientNoContextTakeover := htakeover .clientNoContextTakeover
    have hsflag : t.serverNoContextTakeover = s.serverNoContextTakeover := htakeover .serverNoContextTakeover
    unfold ExtensionCompression.settings
    rw [hlevel, haccepted, hcbits, hsbits, hcflag, hsflag]

theorem start_offered (s : ExtensionCompression) (name : ParameterName) :
    (Negotiation.start s).offered name = false := by
  cases name with
  | clientMaxWindowBits => rfl
  | serverMaxWindowBits => rfl
  | clientNoContextTakeover => rfl
  | serverNoContextTakeover => rfl

theorem offered_iff (s : ExtensionCompression) (ps : List Parameter) (name : ParameterName) :
    (ps.foldl Negotiation.apply (Negotiation.start s)).offered name = true ↔ name ∈ ps.map Parameter.name := by
  rw [foldl_offered, start_offered, Bool.false_or, decide_eq_true_iff]

/-- the same parameters on top of what has been left behind -/
theorem accepted_eq_iff {s t : ExtensionCompression} {left ps : List Parameter} (hnodup : (ps.map Parameter.name).Nodup)
    (ht : t.settings = s.settings.writeAll left) :
    acceptExtension (ps.foldl Negotiation.apply (Negotiation.start t))
        = acceptExtension (ps.foldl Negotiation.apply (Negotiation.start s)) ↔ ∀ p ∈ left, Harmless s ps p := by
  have hsame : (t.writeAll ps).settings = (s.writeAll (left ++ ps)).settings := by
    rw [ExtensionCompression.settings_writeAll, ht, ← ExtensionCompression.writeAll_append,
      ExtensionCompression.settings_writeAll]
  have hbits : ∀ name, (t.writeAll ps).maxBits name = (s.writeAll (left ++ ps)).maxBits name := fun name => by
    rw [← maxBits_settings, hsame, maxBits_settings]
  have htakeover : ∀ name, (t.writeAll ps).takeover name = (s.writeAll (left ++ ps)).takeover name := fun name => by
    rw [← takeover_settings, hsame, takeover_settings]
  have hfold : ∀ u, (ps.foldl Negotiation.apply (Negotiation.start u)).s = u.writeAll ps := fun u => foldl_apply_s ps _
  have hlevel : (t.writeAll ps).compressionLevel = (s.writeAll ps).compressionLevel :=
    ((writeAll_accepted t ps).2.trans (level_of_settings ht)).trans (writeAll_accepted s ps).2.symm
  have hoffered : ∀ name, (ps.foldl Negotiation.apply (Negotiation.start t)).offered name
      = (ps.foldl Negotiation.apply (Negotiation.start s)).offered name := fun name => by
    rw [Bool.eq_iff_iff, offered_iff, offered_iff]
  rw [acceptExtension_eq_iff (by rw [hfold, hfold]; exact hlevel) hoffered, harmless_iff]
  · simp only [hfold, hbits, htakeover, offered_iff]
  · intro h
    refine response_congr hnodup rfl fun name hname => ?_
    have hname := h name ((offered_iff t ps name).mpr hname)
    rwa [hfold, hfold] at hname

/-- After elements that are declined the result is the one of the accepted element alone exactly if all that they leave
behind is harmless; and if all are declined, the settings are the old ones exactly if nothing of it changes them. -/
theorem negotiation_alone_iff (compressionLevel : Nat) (s : ExtensionCompression)
    (hinit : ExtensionCompression.init compressionLevel = some s) (lines : List (List UInt8 × List UInt8))
    (hlines : ∀ line ∈ lines, Bounded line.2) :
    (∀ before k after, offeredElements lines = before ++ k :: after → (negotiate s before).accepted = false →
      (fillRequestedExtension (negotiate s before) k.1 k.2).accepted = true → ∀ memory, Bounded memory →
        (readExtensions s lines = readExtensions s [(k.1, memory)] ↔
          ∀ p ∈ before.flatMap fun e => leftBehind e.1, Harmless s (asked k.1) p)) ∧
    ((readExtensions s lines).accepted = false →
      ((readExtensions s lines).settings = s.settings ↔
        s.compressionLevel = 0 ∨ ∀ p ∈ (offeredElements lines).flatMap fun e => leftBehind e.1, Idle s p)) := by
  have hfresh := init_fresh hinit
  have hbounded : ∀ e ∈ offeredElements lines, Bounded e.2 := fun e he => bounded_offered hlines he
  constructor
  · intro before k after heq hdeclined haccept memory hmemory
    rw [heq] at hbounded
    have hk : k ∈ before ++ k :: after := List.mem_append_right _ List.mem_cons_self
    have hlevel : s.compressionLevel ≠ 0 := fun hzero => by
      rw [negotiate_level_zero hzero, fillRequestedExtension_level_zero hzero, hfresh] at haccept
      cases haccept
    have hleft := negotiate_declined hlevel before (fun e he => hbounded e (List.mem_append_left _ he)) hdeclined
    have hlevel' : (negotiate s before).compressionLevel ≠ 0 := by rwa [level_of_settings hleft]
    obtain ⟨hnodup, htaken⟩ := fillRequestedExtension_taken hdeclined hlevel' k.1 (hbounded k hk) haccept
    have hall : readExtensions s lines = fillRequestedExtension (negotiate s before) k.1 k.2 := by
      rw [readExtensions_eq, heq, negotiate_append]
      exact negotiate_accepted haccept after
    have halone : readExtensions s [(k.1, memory)] = fillRequestedExtension s k.1 memory := by
      obtain ⟨line, -, hline⟩ := List.mem_flatMap.mp (show k ∈ offeredElements lines by rw [heq]; exact hk)
      rw [readExtensions_eq]
      unfold offeredElements
      rw [List.flatMap_singleton, extensionElements_alone hline memory]
      rfl
    rw [hall, halone, htaken _ hdeclined hlevel' k.2 (hbounded k hk), htaken s hfresh hlevel memory hmemory]
    exact accepted_eq_iff hnodup hleft
  · intro hdeclined
    rw [readExtensions_eq] at hdeclined ⊢
    by_cases hzero : s.compressionLevel = 0
    · rw [negotiate_level_zero hzero]
      exact iff_of_true rfl (Or.inl hzero)
    · have hleft := negotiate_declined hzero _ hbounded hdeclined
      rw [or_iff_right hzero, idle_iff, hleft, ← ExtensionCompression.settings_writeAll]
      have hkept := writeAll_accepted s ((offeredElements lines).flatMap fun e => leftBehind e.1)
      exact settings_eq_iff hkept.2 hkept.1

theorem negotiation_alone_iff_unknown :
    readExtensions ⟨2, 12, 12, false, false, none, false⟩ [(ascii "x-webkit-deflate-frame, permessage-deflate", [13])]
      = readExtensions ⟨2, 12, 12, false, false, none, false⟩ [(ascii "permessage-deflate", [13])] := by
  have hnothing : leftBehind (ascii "x-webkit-deflate-frame") = [] := by decide +kernel
  refine ((negotiation_alone_iff 2 ⟨2, 12, 12, false, false, none, false⟩ rfl
    [(ascii "x-webkit-deflate-frame, permessage-deflate", [13])] ?_).1
    [(ascii "x-webkit-deflate-frame", ascii ", permessage-deflate" ++ [13])] (ascii "permessage-deflate", [13]) []
    (by decide +kernel) (by decide +kernel) (by decide +kernel) [13] ⟨by decide, by decide⟩).mpr ?_
  · intro line hline
    rw [List.mem_singleton.mp hline]
    exact ⟨by decide, by decide⟩
  · intro p hp
    rw [List.flatMap_singleton, hnothing] at hp
    cases hp

/-- A list with a second choice: the flag of the first one stays set. -/
theorem second_choice_differs :
    offeredElements [(ascii "permessage-deflate; client_no_context_takeover; server_max_window_bits=8, permessage-deflate",
        [13])]
      = [(ascii "permessage-deflate; client_no_context_takeover; server_max_window_bits=8",
          ascii ", permessage-deflate" ++ [13]), (ascii "permessage-deflate", [13])] ∧
    (negotiate ⟨3, 15, 15, false, false, none, false⟩
      [(ascii "permessage-deflate; client_no_context_takeover; server_max_window_bits=8",
        ascii ", permessage-deflate" ++ [13])]).accepted = false ∧
    (readExtensions ⟨3, 15, 15, false, false, none, false⟩
      [(ascii "permessage-deflate; client_no_context_takeover; server_max_window_bits=8, permessage-deflate",
        [13])]).accepted = true ∧
    readExtensions ⟨3, 15, 15, false, false, none, false⟩
        [(ascii "permessage-deflate; client_no_context_takeover; server_max_window_bits=8, permessage-deflate", [13])]
      ≠ readExtensions ⟨3, 15, 15, false, false, none, false⟩ [(ascii "permessage-deflate", [13])] := by
  refine ⟨by decide +kernel, by decide +kernel, by decide +kernel, fun h => ?_⟩
  have hflag := congrArg ExtensionCompression.clientNoContextTakeover h
  revert hflag
  decide +kernel

end Websocket
end Cjet
