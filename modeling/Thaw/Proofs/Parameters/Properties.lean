import Thaw.Proofs.Parameters.Layout
import Thaw.Proofs.Settings.Properties

namespace Thaw.Parameters

set_option autoImplicit true

theorem mem_intercalate {separator : String} {texts : List String}
    (h : c ∈ (separator.intercalate texts).toList) :
    c ∈ separator.toList ∨ ∃ text ∈ texts, c ∈ text.toList := by
  induction texts with
  | nil =>
    rw [String.intercalate_nil] at h
    cases h
  | cons text texts ih =>
    cases texts with
    | nil =>
      rw [String.intercalate_singleton] at h
      exact .inr ⟨text, List.mem_cons_self, h⟩
    | cons next texts =>
      rw [String.intercalate_cons_cons, String.toList_append, String.toList_append] at h
      rcases List.mem_append.1 h with h | h
      · rcases List.mem_append.1 h with h | h
        · exact .inr ⟨text, List.mem_cons_self, h⟩
        · exact .inl h
      · obtain hseparator | ⟨other, hother, hc⟩ := ih h
        · exact .inl hseparator
        · exact .inr ⟨other, List.mem_cons_of_mem text hother, hc⟩

theorem nul_not_mem_joined {arguments : List String}
    (h : ∀ argument ∈ arguments, '\x00' ∉ argument.toList) :
    '\x00' ∉ (" ".intercalate arguments).toList := by
  intro hnul
  obtain hspace | ⟨argument, hargument, hnul⟩ := mem_intercalate hnul
  · exact absurd hspace (by decide)
  · exact h argument hargument hnul

theorem nul_not_mem_texts {runtime : RuntimeSettings}
    (h : Settings.checkRuntime runtime = .ok ()) :
    ∀ line ∈ runtime.properties.map (·.text), '\x00' ∉ line.toList := by
  obtain ⟨hnames, hvalues⟩ := Settings.checkRuntime_eq_ok_iff.1 h
  intro line hline
  obtain ⟨p, hp, rfl⟩ := List.mem_map.1 hline
  rw [Property.nul_mem_text_iff]
  rintro (hkey | hvalue)
  · exact (hnames p hp).2.2 hkey
  · exact hvalues p hp hvalue

/-- Accepted settings have their properties checked and in ascending order. Such properties, and
arguments and an environment without NUL, always have an encoding while the header can count them;
what is read from it are the same parameters, and the texts in it spell exactly the properties of the
settings, each under its own name and in their order. -/
theorem decode_encode_of_accepted :
    (∀ text settings, Settings.parse text = .ok settings → Settings.Accepted settings.runtime) ∧
    ∀ (runtime : RuntimeSettings) (arguments : List String) (environment : List Bytes)
        (reading : Reading) (dumpsHeap : Bool),
      let application := Application.start runtime (" ".intercalate arguments) dumpsHeap
      let p : Parameters :=
        ⟨reading, application.systemProperties, environment, application.commandLine⟩
      Settings.Accepted runtime → (∀ argument ∈ arguments, '\x00' ∉ argument.toList) →
        (∀ entry ∈ environment, 0 ∉ entry) → runtime.properties.length ≤ maxCount →
        p.environmentSize ≤ maxCount →
          ∃ b, p.encode = .ok b ∧ decode b = .ok p ∧
            p.properties.mapM Property.ofText? = some runtime.properties ∧
            (runtime.properties.map (·.key)).Pairwise (· < ·) := by
  refine ⟨fun _ _ => Settings.accepted_of_parse, ?_⟩
  intro runtime arguments environment reading dumpsHeap application p haccepted harguments
    henvironment hcount hsize
  have hencodable : p.Encodable :=
    { properties_free := nul_not_mem_texts haccepted.checked
      environment_free := henvironment
      arguments_free := nul_not_mem_joined harguments
      propertyCount_le := (List.length_map _).trans_le hcount
      environmentSize_le := hsize }
  have hencode := (encode_eq_ok_iff p).2 ⟨hencodable, rfl⟩
  obtain ⟨hnames, -⟩ := Settings.checkRuntime_eq_ok_iff.1 haccepted.checked
  refine ⟨p.layout, hencode, decode_of_begins hencode List.prefix_rfl, ?_, ?_⟩
  · exact Property.mapM_ofText?_texts fun q hq => (hnames q hq).2.1
  · exact List.pairwise_map.2 haccepted.ascending

def nested : RuntimeSettings :=
  { RuntimeSettings.empty with properties := [⟨"a", "b=c"⟩, ⟨"a.b", ""⟩, ⟨"ä", "=ü"⟩] }

theorem decode_encode_of_accepted_nested :
    Settings.Accepted nested ∧
      let p := capture ⟨[([88], [49])]⟩ ["a=b=c", "a.b=", "ä==ü"] "-x y" ⟨1, 2⟩
      ∃ b, p.encode = .ok b ∧ decode b = .ok p ∧
        p.properties.mapM Property.ofText? = some nested.properties := by
  have haccepted : Settings.Accepted nested := ⟨by decide +kernel, by decide +kernel⟩
  refine ⟨haccepted, ?_⟩
  obtain ⟨b, hencode, hdecode, hproperties, -⟩ := decode_encode_of_accepted.2 nested ["-x", "y"]
    (Environment.entries ⟨[([88], [49])]⟩) ⟨1, 2⟩ true haccepted (by decide +kernel)
    (by decide +kernel) (by decide) (by decide +kernel)
  exact ⟨b, hencode, hdecode, hproperties⟩

end Thaw.Parameters
