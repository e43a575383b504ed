/-!
# Support code of generated modules

Every generated module carries the code that checks arguments and picks instantiations when
it runs, so that it depends on nothing but the binding library. The parts for matrices and
tensors need further headers and are written only where a module uses those types.

## Main definitions

* `Prelude.core`: the part of every module.
* `Prelude.matrices`, `Prelude.tensors`: the parts for further types.
-/
namespace Bindery.Prelude

/-- The exceptions that a generated module raises. -/
def errorSupport : List String :=
  ["namespace pxx_runtime \x7b",
   "",
   "struct AmbiguousInstantiationError : std::runtime_error \x7b",
   "    using std::runtime_error::runtime_error;",
   "\x7d;",
   "struct NoMatchingInstantiationError : std::runtime_error \x7b",
   "    using std::runtime_error::runtime_error;",
   "\x7d;",
   "struct ShapeMismatchError : std::runtime_error \x7b",
   "    using std::runtime_error::runtime_error;",
   "\x7d;",
   "struct RangeError : std::runtime_error \x7b",
   "    using std::runtime_error::runtime_error;",
   "\x7d;",
   "",
   "inline void register_errors(py::module_ &m) \x7b",
   "    py::register_exception<AmbiguousInstantiationError>(m, \"AmbiguousInstantiationError\", PyExc_TypeError);",
   "    py::register_exception<NoMatchingInstantiationError>(m, \"NoMatchingInstantiationError\", PyExc_TypeError);",
   "    py::register_exception<ShapeMismatchError>(m, \"ShapeMismatchError\", PyExc_ValueError);",
   "    py::register_exception<RangeError>(m, \"RangeError\", PyExc_OverflowError);",
   "\x7d",
   ""]

/-- Shapes of host values, and their check against a declared shape. -/
def shapeSupport : List String :=
  ["// Shapes. -1 is a dynamic extent.",
   "",
   "using Shape = std::vector<py::ssize_t>;",
   "",
   "inline bool is_sequence(py::handle src) \x7b",
   "    return py::isinstance<py::sequence>(src) && !py::isinstance<py::str>(src)",
   "        && !py::isinstance<py::bytes>(src);",
   "\x7d",
   "",
   "inline Shape shape_of(py::handle src) \x7b",
   "    if (py::isinstance<py::array>(src)) \x7b",
   "        auto array = py::reinterpret_borrow<py::array>(src);",
   "        return Shape(array.shape(), array.shape() + array.ndim());",
   "    \x7d",
   "    Shape shape;",
   "    py::object current = py::reinterpret_borrow<py::object>(src);",
   "    while (is_sequence(current)) \x7b",
   "        auto length = py::len(current);",
   "        shape.push_back(static_cast<py::ssize_t>(length));",
   "        if (length == 0) \x7b",
   "            break;",
   "        \x7d",
   "        current = current[py::int_(0)];",
   "    \x7d",
   "    return shape;",
   "\x7d",
   "",
   "inline std::string describe(const Shape &shape) \x7b",
   "    std::string out = \"[\";",
   "    for (std::size_t i = 0; i < shape.size(); ++i) \x7b",
   "        if (i > 0) \x7b",
   "            out += \", \";",
   "        \x7d",
   "        out += shape[i] < 0 ? \"*\" : std::to_string(shape[i]);",
   "    \x7d",
   "    return out + \"]\";",
   "\x7d",
   "",
   "inline void check_shape(py::handle src, const Shape &expected) \x7b",
   "    if (!py::isinstance<py::array>(src) && !is_sequence(src)) \x7b",
   "        return;",
   "    \x7d",
   "    Shape actual = shape_of(src);",
   "    bool matches = actual.size() == expected.size();",
   "    for (std::size_t i = 0; matches && i < expected.size(); ++i) \x7b",
   "        matches = expected[i] < 0 || expected[i] == actual[i];",
   "    \x7d",
   "    if (!matches) \x7b",
   "        throw ShapeMismatchError(\"shape mismatch: expected \" + describe(expected) + \", got \"",
   "                                 + describe(actual));",
   "    \x7d",
   "\x7d",
   ""]

/-- The declared shapes of the standard containers. -/
def shapeTraits : List String :=
  ["template <typename T, typename = void>",
   "struct shape_traits \x7b",
   "    static constexpr bool checked = false;",
   "    static Shape expected() \x7b return \x7b\x7d; \x7d",
   "\x7d;",
   "",
   "template <typename T, std::size_t N>",
   "struct shape_traits<std::array<T, N>> \x7b",
   "    static constexpr bool checked = true;",
   "    static Shape expected() \x7b",
   "        Shape shape = shape_traits<T>::expected();",
   "        shape.insert(shape.begin(), static_cast<py::ssize_t>(N));",
   "        return shape;",
   "    \x7d",
   "\x7d;",
   "",
   "template <typename T, typename A>",
   "struct shape_traits<std::vector<T, A>> \x7b",
   "    static constexpr bool checked = true;",
   "    static Shape expected() \x7b",
   "        Shape shape = shape_traits<T>::expected();",
   "        shape.insert(shape.begin(), -1);",
   "        return shape;",
   "    \x7d",
   "\x7d;",
   ""]

/-- The check of scalars against the range of their type. -/
def scalarSupport : List String :=
  ["// Scalars.",
   "",
   "template <typename T>",
   "void check_range(py::handle src, const char *target) \x7b",
   "    auto fail = [&]() \x7b",
   "        throw RangeError(\"value \" + py::str(src).cast<std::string>() + \" is out of range for `\"",
   "                         + target + \"`\");",
   "    \x7d;",
   "    if constexpr (std::is_same_v<T, bool>) \x7b",
   "        return;",
   "    \x7d else if constexpr (std::is_integral_v<T>) \x7b",
   "        if (!PyLong_Check(src.ptr()) || PyBool_Check(src.ptr())) \x7b",
   "            return;",
   "        \x7d",
   "        if constexpr (std::is_signed_v<T>) \x7b",
   "            int overflow = 0;",
   "            long long value = PyLong_AsLongLongAndOverflow(src.ptr(), &overflow);",
   "            if (overflow != 0 || value < static_cast<long long>(std::numeric_limits<T>::min())",
   "                || value > static_cast<long long>(std::numeric_limits<T>::max())) \x7b",
   "                fail();",
   "            \x7d",
   "        \x7d else \x7b",
   "            unsigned long long value = PyLong_AsUnsignedLongLong(src.ptr());",
   "            if (PyErr_Occurred()) \x7b",
   "                PyErr_Clear();",
   "                fail();",
   "            \x7d",
   "            if (value > static_cast<unsigned long long>(std::numeric_limits<T>::max())) \x7b",
   "                fail();",
   "            \x7d",
   "        \x7d",
   "    \x7d else if constexpr (std::is_same_v<T, float>) \x7b",
   "        if (!PyFloat_Check(src.ptr())) \x7b",
   "            return;",
   "        \x7d",
   "        double value = PyFloat_AsDouble(src.ptr());",
   "        if (std::isfinite(value) && std::abs(value) > std::numeric_limits<float>::max()) \x7b",
   "            fail();",
   "        \x7d",
   "    \x7d",
   "\x7d",
   "",
   "template <typename T>",
   "void check(py::handle src, const char *target) \x7b",
   "    using U = std::decay_t<T>;",
   "    if constexpr (std::is_arithmetic_v<U>) \x7b",
   "        check_range<U>(src, target);",
   "    \x7d else if constexpr (shape_traits<U>::checked) \x7b",
   "        check_shape(src, shape_traits<U>::expected());",
   "    \x7d",
   "\x7d",
   "",
   "template <typename T>",
   "struct Checked \x7b",
   "    T value\x7b\x7d;",
   "\x7d;",
   "",
   "\x7d // namespace pxx_runtime",
   ""]

/-- The conversion of a checked argument. -/
def casterSupport : List String :=
  ["namespace pybind11 \x7b",
   "namespace detail \x7b",
   "",
   "template <typename T>",
   "struct type_caster<pxx_runtime::Checked<T>> \x7b",
   "    using inner_caster = make_caster<T>;",
   "    PYBIND11_TYPE_CASTER(pxx_runtime::Checked<T>, inner_caster::name);",
   "",
   "    bool load(handle src, bool convert) \x7b",
   "        if (convert) \x7b",
   "            pxx_runtime::check<T>(src, type_id<T>().c_str());",
   "        \x7d",
   "        inner_caster inner;",
   "        if (!inner.load(src, convert)) \x7b",
   "            return false;",
   "        \x7d",
   "        value.value = cast_op<T &&>(std::move(inner));",
   "        return true;",
   "    \x7d",
   "",
   "    static handle cast(const pxx_runtime::Checked<T> &src, return_value_policy policy, handle parent) \x7b",
   "        return inner_caster::cast(src.value, policy, parent);",
   "    \x7d",
   "\x7d;",
   "",
   "\x7d // namespace detail",
   "\x7d // namespace pybind11",
   ""]

/-- The vocabulary of dispatch, and the element type of a host array. -/
def elementSupport : List String :=
  ["namespace pxx_runtime \x7b",
   "",
   "// Dispatch. Mirrors the matcher of the generator: a call takes the best",
   "// tier any entry reaches; within it the first entry wins unless another of",
   "// the same specificity matches as well.",
   "",
   "enum class Kind \x7b Bool, Char, Integer, Float \x7d;",
   "enum class Tier \x7b Exact = 0, Compatible = 1, Generic = 2, None = 3 \x7d;",
   "enum class Specificity \x7b Full = 0, Partial = 1, Primary = 2 \x7d;",
   "",
   "inline std::string element_of(py::handle src) \x7b",
   "    py::handle leaf = src;",
   "    if (py::isinstance<py::array>(src)) \x7b",
   "        switch (py::reinterpret_borrow<py::array>(src).dtype().kind()) \x7b",
   "        case 'b':",
   "            return \"bool\";",
   "        case 'i':",
   "        case 'u':",
   "            return \"int\";",
   "        case 'f':",
   "            return \"float\";",
   "        default:",
   "            return \"object\";",
   "        \x7d",
   "    \x7d",
   "    py::object current = py::reinterpret_borrow<py::object>(src);",
   "    while (is_sequence(current) && py::len(current) > 0) \x7b",
   "        current = current[py::int_(0)];",
   "    \x7d",
   "    leaf = current;",
   "    if (py::isinstance<py::bool_>(leaf)) \x7b",
   "        return \"bool\";",
   "    \x7d",
   "    if (py::isinstance<py::int_>(leaf)) \x7b",
   "        return \"int\";",
   "    \x7d",
   "    if (py::isinstance<py::float_>(leaf)) \x7b",
   "        return \"float\";",
   "    \x7d",
   "    return \"object\";",
   "\x7d",
   ""]

/-- The description of the arguments of a call. -/
def descriptionSupport : List String :=
  ["inline std::string describe(py::handle arg) \x7b",
   "    if (arg.is_none()) \x7b",
   "        return \"None\";",
   "    \x7d",
   "    if (py::isinstance<py::bool_>(arg)) \x7b",
   "        return \"bool\";",
   "    \x7d",
   "    if (py::isinstance<py::int_>(arg)) \x7b",
   "        return \"int\";",
   "    \x7d",
   "    if (py::isinstance<py::float_>(arg)) \x7b",
   "        return \"float\";",
   "    \x7d",
   "    if (py::isinstance<py::str>(arg)) \x7b",
   "        return \"str\";",
   "    \x7d",
   "    if (py::isinstance<py::array>(arg) || is_sequence(arg)) \x7b",
   "        std::string shape = describe(shape_of(arg));",
   "        return \"array<\" + element_of(arg) + \">\" + shape;",
   "    \x7d",
   "    return py::type::of(arg).attr(\"__name__\").cast<std::string>();",
   "\x7d",
   "",
   "inline std::string describe(const py::args &args) \x7b",
   "    std::string out;",
   "    for (std::size_t i = 0; i < args.size(); ++i) \x7b",
   "        if (i > 0) \x7b",
   "            out += \", \";",
   "        \x7d",
   "        out += describe(args[i]);",
   "    \x7d",
   "    return out;",
   "\x7d",
   "",
   "inline bool element_compatible(Kind element, const std::string &host) \x7b",
   "    if (host == \"bool\") \x7b",
   "        return element == Kind::Bool;",
   "    \x7d",
   "    if (host == \"int\") \x7b",
   "        return element == Kind::Integer || element == Kind::Float;",
   "    \x7d",
   "    if (host == \"float\") \x7b",
   "        return element == Kind::Float;",
   "    \x7d",
   "    return false;",
   "\x7d",
   ""]

/-- What a parameter accepts. -/
def patternSupport : List String :=
  ["struct Pattern \x7b",
   "    std::function<Tier(py::handle)> match;",
   "",
   "    static Pattern scalar(Kind kind) \x7b",
   "        return \x7b[kind](py::handle arg) \x7b",
   "            bool is_bool = py::isinstance<py::bool_>(arg);",
   "            bool is_int = !is_bool && py::isinstance<py::int_>(arg);",
   "            switch (kind) \x7b",
   "            case Kind::Bool:",
   "                return is_bool ? Tier::Exact : Tier::None;",
   "            case Kind::Char:",
   "                return py::isinstance<py::str>(arg) ? Tier::Compatible : Tier::None;",
   "            case Kind::Integer:",
   "                return is_int ? Tier::Exact : Tier::None;",
   "            case Kind::Float:",
   "                if (py::isinstance<py::float_>(arg)) \x7b",
   "                    return Tier::Exact;",
   "                \x7d",
   "                return is_int ? Tier::Compatible : Tier::None;",
   "            \x7d",
   "            return Tier::None;",
   "        \x7d\x7d;",
   "    \x7d",
   "",
   "    static Pattern string() \x7b",
   "        return \x7b[](py::handle arg) \x7b return py::isinstance<py::str>(arg) ? Tier::Exact : Tier::None; \x7d\x7d;",
   "    \x7d",
   "",
   "    static Pattern array(Kind element, Shape dims) \x7b",
   "        return \x7b[element, dims](py::handle arg) \x7b",
   "            if (!py::isinstance<py::array>(arg) && !is_sequence(arg)) \x7b",
   "                return Tier::None;",
   "            \x7d",
   "            if (!element_compatible(element, element_of(arg))) \x7b",
   "                return Tier::None;",
   "            \x7d",
   "            Shape shape = shape_of(arg);",
   "            if (shape.size() != dims.size()) \x7b",
   "                return Tier::None;",
   "            \x7d",
   "            for (std::size_t i = 0; i < dims.size(); ++i) \x7b",
   "                if (dims[i] >= 0 && dims[i] != shape[i]) \x7b",
   "                    return Tier::None;",
   "                \x7d",
   "            \x7d",
   "            return Tier::Compatible;",
   "        \x7d\x7d;",
   "    \x7d",
   "",
   "    static Pattern array_any(Kind element) \x7b",
   "        return \x7b[element](py::handle arg) \x7b",
   "            if (!py::isinstance<py::array>(arg) && !is_sequence(arg)) \x7b",
   "                return Tier::None;",
   "            \x7d",
   "            return element_compatible(element, element_of(arg)) ? Tier::Generic : Tier::None;",
   "        \x7d\x7d;",
   "    \x7d",
   "",
   "    template <typename T>",
   "    static Pattern object(bool nullable) \x7b",
   "        return \x7b[nullable](py::handle arg) \x7b",
   "            if (arg.is_none()) \x7b",
   "                return nullable ? Tier::Compatible : Tier::None;",
   "            \x7d",
   "            if (py::type::of(arg).is(py::type::of<T>())) \x7b",
   "                return Tier::Exact;",
   "            \x7d",
   "            return py::isinstance<T>(arg) ? Tier::Compatible : Tier::None;",
   "        \x7d\x7d;",
   "    \x7d",
   "",
   "    static Pattern any() \x7b",
   "        return \x7b[](py::handle) \x7b return Tier::Generic; \x7d\x7d;",
   "    \x7d",
   "\x7d;",
   ""]

/-- What a signature accepts. -/
def signatureSupport : List String :=
  ["struct Signature \x7b",
   "    std::vector<Pattern> params;",
   "    std::size_t required;",
   "",
   "    Tier match(const py::args &args) const \x7b",
   "        if (args.size() < required || args.size() > params.size()) \x7b",
   "            return Tier::None;",
   "        \x7d",
   "        Tier tier = Tier::Exact;",
   "        for (std::size_t i = 0; i < args.size(); ++i) \x7b",
   "            tier = std::max(tier, params[i].match(args[i]));",
   "            if (tier == Tier::None) \x7b",
   "                break;",
   "            \x7d",
   "        \x7d",
   "        return tier;",
   "    \x7d",
   "\x7d;",
   "",
   "struct Entry \x7b",
   "    std::string native;",
   "    std::string binding;",
   "    Specificity specificity;",
   "    std::vector<Signature> signatures;",
   "\x7d;",
   ""]

/-- The choice of an instantiation. -/
def catalogueSupport : List String :=
  ["struct Catalogue \x7b",
   "    std::string name;",
   "    std::vector<Entry> entries;",
   "",
   "    const Entry &select(const py::args &args) const \x7b",
   "        std::vector<std::pair<const Entry *, Tier>> matches;",
   "        Tier best = Tier::None;",
   "        for (const auto &entry : entries) \x7b",
   "            Tier tier = Tier::None;",
   "            for (const auto &signature : entry.signatures) \x7b",
   "                tier = std::min(tier, signature.match(args));",
   "            \x7d",
   "            if (tier != Tier::None) \x7b",
   "                matches.emplace_back(&entry, tier);",
   "                best = std::min(best, tier);",
   "            \x7d",
   "        \x7d",
   "        if (best == Tier::None) \x7b",
   "            throw NoMatchingInstantiationError(\"no instantiation of `\" + name + \"` matches arguments (\"",
   "                                               + describe(args) + \")\");",
   "        \x7d",
   "        const Entry *first = nullptr;",
   "        std::string rivals;",
   "        std::size_t count = 0;",
   "        for (const auto &[entry, tier] : matches) \x7b",
   "            if (tier != best) \x7b",
   "                continue;",
   "            \x7d",
   "            if (first == nullptr) \x7b",
   "                first = entry;",
   "            \x7d",
   "            if (entry->specificity == first->specificity) \x7b",
   "                rivals += (count++ > 0 ? \", \" : \"\") + entry->native;",
   "            \x7d",
   "        \x7d",
   "        if (count > 1) \x7b",
   "            throw AmbiguousInstantiationError(\"ambiguous call to `\" + name + \"`: instantiations \" + rivals",
   "                                              + \" match equally well\");",
   "        \x7d",
   "        return *first;",
   "    \x7d",
   "",
   "    py::object call(py::module_ &module, const py::args &args, const py::kwargs &kwargs) const \x7b",
   "        return module.attr(select(args).binding.c_str())(*args, **kwargs);",
   "    \x7d",
   "\x7d;",
   "",
   "\x7d // namespace pxx_runtime"]

/-- The part of every module. -/
def core : List String :=
  errorSupport ++ shapeSupport ++ shapeTraits ++ scalarSupport ++ casterSupport ++
    elementSupport ++ descriptionSupport ++ patternSupport ++ signatureSupport ++ catalogueSupport

/-- The declared shapes of matrices and vectors. -/
def matrices : List String :=
  ["namespace pxx_runtime \x7b",
   "",
   "inline py::ssize_t extent(int n) \x7b",
   "    return n == Eigen::Dynamic ? -1 : static_cast<py::ssize_t>(n);",
   "\x7d",
   "",
   "template <typename S, int R, int C, int O, int MR, int MC>",
   "struct shape_traits<Eigen::Matrix<S, R, C, O, MR, MC>> \x7b",
   "    static constexpr bool checked = true;",
   "    static Shape expected() \x7b",
   "        if (R == 1 && C != 1) \x7b",
   "            return \x7bextent(C)\x7d;",
   "        \x7d",
   "        if (C == 1 && R != 1) \x7b",
   "            return \x7bextent(R)\x7d;",
   "        \x7d",
   "        return \x7bextent(R), extent(C)\x7d;",
   "    \x7d",
   "\x7d;",
   "",
   "template <typename S, int R, int C, int O, int MR, int MC>",
   "struct shape_traits<Eigen::Array<S, R, C, O, MR, MC>> : shape_traits<Eigen::Matrix<S, R, C, O, MR, MC>> \x7b\x7d;",
   "",
   "\x7d // namespace pxx_runtime"]

/-- The declared shapes of tensors. -/
def tensors : List String :=
  ["namespace pxx_runtime \x7b",
   "",
   "template <typename S, int Rank, int O, typename I>",
   "struct shape_traits<Eigen::Tensor<S, Rank, O, I>> \x7b",
   "    static constexpr bool checked = true;",
   "    static Shape expected() \x7b return Shape(static_cast<std::size_t>(Rank), -1); \x7d",
   "\x7d;",
   "",
   "\x7d // namespace pxx_runtime"]

end Bindery.Prelude
