import IdlBindings.Text.Lines

/-!
# The support header

Generated code leaves what does not depend on the document to a header: scalar and sequence
conversions, promises, the search among signatures, wrapped native objects and their cached members,
and the failures that are thrown in the host. The header can be written next to the generated code.

## Main definitions

* `supportHeader`: the text of the header
-/
namespace IdlBindings

set_option maxRecDepth 4000

/-- Guard, failure reports, and the types that generated code names. -/
def headerPreamble : List String := [
  "#ifndef WEBIDL_NAPI_H_",
  "#define WEBIDL_NAPI_H_",
  "",
  "// Support routines for bindings generated by napidl.",
  "",
  "#include <stddef.h>",
  "#include <stdint.h>",
  "#include <limits>",
  "#include <memory>",
  "#include <string>",
  "#include <utility>",
  "#include <vector>",
  "",
  "#if defined(BUILDING_NODE_EXTENSION)",
  "#include \"node_api.h\"",
  "#else",
  "#include \"js_native_api.h\"",
  "#endif",
  "",
  "#if !defined(NAPI_VERSION) || NAPI_VERSION < 8",
  "#error \"webidl-napi.h requires NAPI_VERSION 8 or later\"",
  "#endif",
  "",
  "#define WEBIDL_NAPI_RETVAL_NOTHING",
  "",
  "#define WEBIDL_NAPI_SOURCE_LOCATION                            \\",
  "  (std::string(\"\\n    at \") + std::string(__func__) +          \\",
  "   std::string(\" (\" __FILE__ \":\") + std::to_string(__LINE__) + \\",
  "   std::string(\")\"))",
  "",
  "// Throws for a failed `status` unless an exception is already pending.",
  "// The last error message is copied first: napi_is_exception_pending resets",
  "// the last error info. It is used only when it describes `status`, since",
  "// converters may return a status without a failing N-API call. Failed type",
  "// checks surface as a TypeError.",
  "#define WEBIDL_NAPI_THROW_LAST_ERROR(env, status)                          \\",
  "  do \x7b                                                                     \\",
  "    const napi_extended_error_info* error_info = nullptr;                  \\",
  "    napi_get_last_error_info((env), &error_info);                          \\",
  "    bool is_type_error = WebIdlNapi::internal::IsTypeMismatch((status));   \\",
  "    std::string error_message =                                            \\",
  "        (error_info != nullptr && error_info->error_code == (status) &&    \\",
  "         error_info->error_message != nullptr)                             \\",
  "            ? std::string(error_info->error_message)                       \\",
  "            : std::string(is_type_error ? \"Value has the wrong type\"       \\",
  "                                        : \"empty error message\");          \\",
  "    bool is_pending = false;                                               \\",
  "    napi_is_exception_pending((env), &is_pending);                         \\",
  "    if (!is_pending) \x7b                                                     \\",
  "      error_message += WEBIDL_NAPI_SOURCE_LOCATION;                        \\",
  "      if (is_type_error) \x7b                                                 \\",
  "        napi_throw_type_error((env), nullptr, error_message.c_str());      \\",
  "      \x7d else \x7b                                                             \\",
  "        napi_throw_error((env), nullptr, error_message.c_str());           \\",
  "      \x7d                                                                    \\",
  "    \x7d                                                                      \\",
  "  \x7d while (0)",
  "",
  "#define NAPI_CALL_BASE(env, the_call, ret_val)                             \\",
  "  do \x7b                                                                     \\",
  "    napi_status webidl_napi_call_status = (the_call);                      \\",
  "    if (webidl_napi_call_status != napi_ok) \x7b                              \\",
  "      WEBIDL_NAPI_THROW_LAST_ERROR((env), webidl_napi_call_status);        \\",
  "      return ret_val;                                                      \\",
  "    \x7d                                                                      \\",
  "  \x7d while (0)",
  "",
  "#define NAPI_CALL(env, the_call) NAPI_CALL_BASE(env, the_call, nullptr)",
  "",
  "#define NAPI_CALL_RETURN_VOID(env, the_call) \\",
  "  NAPI_CALL_BASE(env, the_call, WEBIDL_NAPI_RETVAL_NOTHING)",
  "",
  "#define WEBIDL_NAPI_RETURN_IF_FAILED(the_call) \\",
  "  do \x7b                                         \\",
  "    napi_status webidl_napi_status = (the_call); \\",
  "    if (webidl_napi_status != napi_ok) return webidl_napi_status; \\",
  "  \x7d while (0)",
  "",
  "namespace WebIdlNapi \x7b",
  "namespace internal \x7b",
  "",
  "// Statuses reported when a value has the wrong category.",
  "inline bool IsTypeMismatch(napi_status status) \x7b",
  "  switch (status) \x7b",
  "    case napi_object_expected:",
  "    case napi_string_expected:",
  "    case napi_name_expected:",
  "    case napi_function_expected:",
  "    case napi_number_expected:",
  "    case napi_boolean_expected:",
  "    case napi_array_expected:",
  "    case napi_bigint_expected:",
  "    case napi_date_expected:",
  "    case napi_arraybuffer_expected:",
  "    case napi_detachable_arraybuffer_expected:",
  "      return true;",
  "    default:",
  "      return false;",
  "  \x7d",
  "\x7d",
  "",
  "\x7d  // namespace internal",
  "\x7d  // namespace WebIdlNapi",
  "",
  "using DOMString = std::string;",
  "using ByteString = std::string;",
  "using USVString = std::string;",
  "using object = napi_value;",
  "",
  "namespace WebIdlNapi \x7b",
  "",
  "// The IDL `undefined` type.",
  "struct Undefined \x7b\x7d;",
  "",
  "template <typename T>",
  "using sequence = std::vector<T>;",
  "",
  "template <typename T>",
  "using FrozenArray = std::vector<T>;",
  "",
  "template <typename T>",
  "class Converter \x7b",
  " public:",
  "  static napi_status ToNative(napi_env env, napi_value value, T* result);",
  "  static napi_status ToJS(napi_env env, const T& value, napi_value* result);",
  "\x7d;",
  ""]

/-- Failures that are thrown in the host. -/
def headerErrors : List String := [
  "////////////////////////////////////////////////////////////////////////////////",
  "// Errors",
  "////////////////////////////////////////////////////////////////////////////////",
  "",
  "inline napi_status ThrowTypeError(napi_env env, const std::string& message) \x7b",
  "  napi_throw_type_error(env, nullptr, message.c_str());",
  "  return napi_pending_exception;",
  "\x7d",
  "",
  "inline napi_status ThrowNotImplemented(napi_env env, const char* construct) \x7b",
  "  napi_throw_error(env, nullptr,",
  "                   (std::string(\"not implemented: \") + construct).c_str());",
  "  return napi_pending_exception;",
  "\x7d",
  "",
  "inline void ThrowNoMatch(napi_env env, const char* operation) \x7b",
  "  ThrowTypeError(env, std::string(\"No overload of \") + operation +",
  "                          \" matches the given arguments\");",
  "\x7d",
  "",
  "inline napi_status ThrowInvalidEnumValue(napi_env env,",
  "                                         const char* enum_name,",
  "                                         const std::string& value) \x7b",
  "  return ThrowTypeError(env, \"The provided value '\" + value +",
  "                                 \"' is not a valid enum value of type \" +",
  "                                 enum_name + \".\");",
  "\x7d",
  "",
  "inline napi_status ThrowMissingMember(napi_env env,",
  "                                      const char* dictionary,",
  "                                      const char* member) \x7b",
  "  return ThrowTypeError(env, std::string(\"Required member '\") + member +",
  "                                 \"' is missing from dictionary \" +",
  "                                 dictionary + \".\");",
  "\x7d",
  ""]

/-- Conversions of scalars. -/
def headerScalars : List String := [
  "////////////////////////////////////////////////////////////////////////////////",
  "// Scalar converters",
  "////////////////////////////////////////////////////////////////////////////////",
  "",
  "template <>",
  "inline napi_status Converter<bool>::ToNative(napi_env env,",
  "                                             napi_value value,",
  "                                             bool* result) \x7b",
  "  return napi_get_value_bool(env, value, result);",
  "\x7d",
  "",
  "template <>",
  "inline napi_status Converter<bool>::ToJS(napi_env env,",
  "                                         const bool& value,",
  "                                         napi_value* result) \x7b",
  "  return napi_get_boolean(env, value, result);",
  "\x7d",
  "",
  "#define WEBIDL_NAPI_NUMBER_CONVERTER(native, wide, getter, creator)        \\",
  "  template <>                                                             \\",
  "  inline napi_status Converter<native>::ToNative(                         \\",
  "      napi_env env, napi_value value, native* result) \x7b                   \\",
  "    wide wide_value;                                                      \\",
  "    WEBIDL_NAPI_RETURN_IF_FAILED(getter(env, value, &wide_value));        \\",
  "    *result = static_cast<native>(wide_value);                            \\",
  "    return napi_ok;                                                       \\",
  "  \x7d                                                                       \\",
  "  template <>                                                             \\",
  "  inline napi_status Converter<native>::ToJS(                             \\",
  "      napi_env env, const native& value, napi_value* result) \x7b            \\",
  "    return creator(env, static_cast<wide>(value), result);                \\",
  "  \x7d",
  "",
  "WEBIDL_NAPI_NUMBER_CONVERTER(int8_t, int32_t, napi_get_value_int32, napi_create_int32)",
  "WEBIDL_NAPI_NUMBER_CONVERTER(int16_t, int32_t, napi_get_value_int32, napi_create_int32)",
  "WEBIDL_NAPI_NUMBER_CONVERTER(int32_t, int32_t, napi_get_value_int32, napi_create_int32)",
  "WEBIDL_NAPI_NUMBER_CONVERTER(uint8_t, uint32_t, napi_get_value_uint32, napi_create_uint32)",
  "WEBIDL_NAPI_NUMBER_CONVERTER(uint16_t, uint32_t, napi_get_value_uint32, napi_create_uint32)",
  "WEBIDL_NAPI_NUMBER_CONVERTER(uint32_t, uint32_t, napi_get_value_uint32, napi_create_uint32)",
  "WEBIDL_NAPI_NUMBER_CONVERTER(int64_t, int64_t, napi_get_value_int64, napi_create_int64)",
  "WEBIDL_NAPI_NUMBER_CONVERTER(uint64_t, int64_t, napi_get_value_int64, napi_create_int64)",
  "WEBIDL_NAPI_NUMBER_CONVERTER(float, double, napi_get_value_double, napi_create_double)",
  "WEBIDL_NAPI_NUMBER_CONVERTER(double, double, napi_get_value_double, napi_create_double)",
  "",
  "#undef WEBIDL_NAPI_NUMBER_CONVERTER",
  "",
  "template <>",
  "inline napi_status Converter<std::string>::ToNative(napi_env env,",
  "                                                    napi_value value,",
  "                                                    std::string* result) \x7b",
  "  size_t size = 0;",
  "  WEBIDL_NAPI_RETURN_IF_FAILED(",
  "      napi_get_value_string_utf8(env, value, nullptr, 0, &size));",
  "  std::vector<char> buffer(size + 1);",
  "  WEBIDL_NAPI_RETURN_IF_FAILED(napi_get_value_string_utf8(",
  "      env, value, buffer.data(), buffer.size(), &size));",
  "  result->assign(buffer.data(), size);",
  "  return napi_ok;",
  "\x7d",
  "",
  "template <>",
  "inline napi_status Converter<std::string>::ToJS(napi_env env,",
  "                                                const std::string& value,",
  "                                                napi_value* result) \x7b",
  "  return napi_create_string_utf8(env, value.c_str(), value.size(), result);",
  "\x7d",
  "",
  "template <>",
  "inline napi_status Converter<napi_value>::ToNative(napi_env env,",
  "                                                   napi_value value,",
  "                                                   napi_value* result) \x7b",
  "  napi_valuetype type;",
  "  WEBIDL_NAPI_RETURN_IF_FAILED(napi_typeof(env, value, &type));",
  "  if (type != napi_object && type != napi_function) return napi_object_expected;",
  "  *result = value;",
  "  return napi_ok;",
  "\x7d",
  "",
  "template <>",
  "inline napi_status Converter<napi_value>::ToJS(napi_env env,",
  "                                               const napi_value& value,",
  "                                               napi_value* result) \x7b",
  "  *result = value;",
  "  return napi_ok;",
  "\x7d",
  "",
  "template <>",
  "inline napi_status Converter<Undefined>::ToNative(napi_env env,",
  "                                                  napi_value value,",
  "                                                  Undefined* result) \x7b",
  "  return napi_ok;",
  "\x7d",
  "",
  "template <>",
  "inline napi_status Converter<Undefined>::ToJS(napi_env env,",
  "                                              const Undefined& value,",
  "                                              napi_value* result) \x7b",
  "  return napi_get_undefined(env, result);",
  "\x7d",
  ""]

/-- Conversions of sequences. -/
def headerSequences : List String := [
  "////////////////////////////////////////////////////////////////////////////////",
  "// Sequences",
  "////////////////////////////////////////////////////////////////////////////////",
  "",
  "template <typename T>",
  "inline napi_status SequenceToNative(",
  "    napi_env env,",
  "    napi_value value,",
  "    napi_status (*item_to_native)(napi_env, napi_value, T*),",
  "    std::vector<T>* result) \x7b",
  "  bool is_array = false;",
  "  WEBIDL_NAPI_RETURN_IF_FAILED(napi_is_array(env, value, &is_array));",
  "  if (!is_array) return napi_array_expected;",
  "",
  "  uint32_t length = 0;",
  "  WEBIDL_NAPI_RETURN_IF_FAILED(napi_get_array_length(env, value, &length));",
  "",
  "  std::vector<T> items;",
  "  items.reserve(length);",
  "  for (uint32_t idx = 0; idx < length; idx++) \x7b",
  "    napi_value js_item;",
  "    WEBIDL_NAPI_RETURN_IF_FAILED(napi_get_element(env, value, idx, &js_item));",
  "    T item\x7b\x7d;",
  "    WEBIDL_NAPI_RETURN_IF_FAILED(item_to_native(env, js_item, &item));",
  "    items.push_back(std::move(item));",
  "  \x7d",
  "  *result = std::move(items);",
  "  return napi_ok;",
  "\x7d",
  "",
  "template <typename T>",
  "inline napi_status SequenceToJS(",
  "    napi_env env,",
  "    const std::vector<T>& value,",
  "    napi_status (*item_to_js)(napi_env, const T&, napi_value*),",
  "    napi_value* result) \x7b",
  "  napi_value array;",
  "  WEBIDL_NAPI_RETURN_IF_FAILED(napi_create_array_with_length(env, value.size(), &array));",
  "  for (size_t idx = 0; idx < value.size(); idx++) \x7b",
  "    napi_value js_item;",
  "    WEBIDL_NAPI_RETURN_IF_FAILED(item_to_js(env, value[idx], &js_item));",
  "    WEBIDL_NAPI_RETURN_IF_FAILED(",
  "        napi_set_element(env, array, static_cast<uint32_t>(idx), js_item));",
  "  \x7d",
  "  *result = array;",
  "  return napi_ok;",
  "\x7d",
  ""]

/-- Promises. -/
def headerPromises : List String := [
  "////////////////////////////////////////////////////////////////////////////////",
  "// Promises",
  "////////////////////////////////////////////////////////////////////////////////",
  "",
  "// A native result that settles a host promise.",
  "//",
  "// Native code creates the promise, returns it, and calls Resolve() or Reject()",
  "// either before returning or later on the thread that owns the environment.",
  "// The binding attaches the host promise with Attach() and settles any result",
  "// that is already available with Finalize().",
  "template <typename T>",
  "class Promise \x7b",
  " public:",
  "  using ToJSCallback = napi_status (*)(napi_env, const T&, napi_value*);",
  "",
  "  Promise() : state_(std::make_shared<State>()) \x7b\x7d",
  "",
  "  void Resolve(const T& value) \x7b",
  "    state_->value.reset(new T(value));",
  "    state_->settled = Settled::kResolved;",
  "    if (state_->deferred != nullptr) Settle();",
  "  \x7d",
  "",
  "  void Reject(const std::string& message) \x7b",
  "    state_->error = message;",
  "    state_->settled = Settled::kRejected;",
  "    if (state_->deferred != nullptr) Settle();",
  "  \x7d",
  "",
  "  napi_status Attach(napi_env env, ToJSCallback to_js, napi_value* result) const \x7b",
  "    if (state_->deferred != nullptr) return napi_generic_failure;",
  "    state_->env = env;",
  "    state_->to_js = to_js;",
  "    return napi_create_promise(env, &state_->deferred, result);",
  "  \x7d",
  "",
  "  napi_status Finalize(napi_env env) const \x7b",
  "    if (state_->deferred == nullptr) return napi_invalid_arg;",
  "    if (state_->settled == Settled::kPending) return napi_ok;",
  "    return Settle();",
  "  \x7d",
  "",
  " private:",
  "  enum class Settled \x7b kPending, kResolved, kRejected \x7d;",
  "",
  "  struct State \x7b",
  "    napi_env env = nullptr;",
  "    napi_deferred deferred = nullptr;",
  "    ToJSCallback to_js = nullptr;",
  "    Settled settled = Settled::kPending;",
  "    std::unique_ptr<T> value;",
  "    std::string error;",
  "  \x7d;",
  "",
  "  napi_status Settle() const \x7b",
  "    napi_env env = state_->env;",
  "    napi_deferred deferred = state_->deferred;",
  "    state_->deferred = nullptr;",
  "",
  "    napi_value outcome;",
  "    if (state_->settled == Settled::kResolved) \x7b",
  "      napi_status status = state_->to_js(env, *state_->value, &outcome);",
  "      if (status != napi_ok) \x7b",
  "        bool is_pending = false;",
  "        napi_is_exception_pending(env, &is_pending);",
  "        if (!is_pending) return status;",
  "        WEBIDL_NAPI_RETURN_IF_FAILED(",
  "            napi_get_and_clear_last_exception(env, &outcome));",
  "        return napi_reject_deferred(env, deferred, outcome);",
  "      \x7d",
  "      return napi_resolve_deferred(env, deferred, outcome);",
  "    \x7d",
  "",
  "    napi_value message;",
  "    WEBIDL_NAPI_RETURN_IF_FAILED(napi_create_string_utf8(",
  "        env, state_->error.c_str(), state_->error.size(), &message));",
  "    WEBIDL_NAPI_RETURN_IF_FAILED(napi_create_error(env, nullptr, message, &outcome));",
  "    return napi_reject_deferred(env, deferred, outcome);",
  "  \x7d",
  "",
  "  std::shared_ptr<State> state_;",
  "\x7d;",
  ""]

/-- The search among signatures. -/
def headerSignatures : List String := [
  "////////////////////////////////////////////////////////////////////////////////",
  "// Overload resolution",
  "////////////////////////////////////////////////////////////////////////////////",
  "",
  "// Matches any value category. Kept outside napi_valuetype, whose range",
  "// does not include negative values.",
  "static constexpr int kAnyValue = -1;",
  "",
  "// Expected categories as napi_valuetype values, or kAnyValue.",
  "struct Signature \x7b",
  "  std::vector<int> types;",
  "  size_t required;",
  "\x7d;",
  "",
  "inline bool SignatureAccepts(const Signature& sig,",
  "                             const std::vector<napi_valuetype>& types) \x7b",
  "  if (types.size() < sig.required) \x7b",
  "    for (size_t idx = types.size(); idx < sig.required; idx++)",
  "      if (sig.types[idx] != kAnyValue) return false;",
  "  \x7d",
  "  for (size_t idx = 0; idx < types.size(); idx++) \x7b",
  "    if (idx >= sig.types.size()) \x7b",
  "      if (types[idx] != napi_undefined) return false;",
  "      continue;",
  "    \x7d",
  "    if (types[idx] == napi_undefined && idx >= sig.required) continue;",
  "    if (sig.types[idx] != kAnyValue &&",
  "        sig.types[idx] != static_cast<int>(types[idx]))",
  "      return false;",
  "  \x7d",
  "  return true;",
  "\x7d",
  "",
  "// Stores the index of the first signature accepting the arguments in",
  "// `sig_idx`, or -1 if none does.",
  "inline napi_status PickSignature(napi_env env,",
  "                                 size_t argc,",
  "                                 napi_value* argv,",
  "                                 const Signature* sigs,",
  "                                 size_t sig_count,",
  "                                 int* sig_idx) \x7b",
  "  std::vector<napi_valuetype> types(argc);",
  "  for (size_t idx = 0; idx < argc; idx++)",
  "    WEBIDL_NAPI_RETURN_IF_FAILED(napi_typeof(env, argv[idx], &types[idx]));",
  "",
  "  *sig_idx = -1;",
  "  for (size_t idx = 0; idx < sig_count; idx++) \x7b",
  "    if (SignatureAccepts(sigs[idx], types)) \x7b",
  "      *sig_idx = static_cast<int>(idx);",
  "      break;",
  "    \x7d",
  "  \x7d",
  "  return napi_ok;",
  "\x7d",
  "",
  "// Whether optional argument `idx` was passed and is not undefined.",
  "inline napi_status HasArgument(napi_env env,",
  "                               size_t argc,",
  "                               napi_value* argv,",
  "                               size_t idx,",
  "                               bool* result) \x7b",
  "  *result = false;",
  "  if (idx >= argc) return napi_ok;",
  "  napi_valuetype type;",
  "  WEBIDL_NAPI_RETURN_IF_FAILED(napi_typeof(env, argv[idx], &type));",
  "  *result = (type != napi_undefined);",
  "  return napi_ok;",
  "\x7d",
  ""]

/-- Native objects inside host objects. -/
def headerWrapping : List String := [
  "////////////////////////////////////////////////////////////////////////////////",
  "// Wrapping",
  "////////////////////////////////////////////////////////////////////////////////",
  "",
  "namespace internal \x7b",
  "",
  "struct Instance \x7b",
  "  void* native;",
  "  void (*destroy)(void*);",
  "  std::vector<napi_ref> slots;",
  "\x7d;",
  "",
  "template <typename T>",
  "void Destroy(void* native) \x7b",
  "  delete static_cast<T*>(native);",
  "\x7d",
  "",
  "inline void FinalizeInstance(napi_env env, void* data, void* hint) \x7b",
  "  Instance* instance = static_cast<Instance*>(data);",
  "  for (napi_ref slot : instance->slots)",
  "    if (slot != nullptr) napi_delete_reference(env, slot);",
  "  instance->destroy(instance->native);",
  "  delete instance;",
  "\x7d",
  "",
  "// Carries a native pointer into a constructor through a napi_external.",
  "struct ExternalInstance \x7b",
  "  void* native;",
  "  bool adopted;",
  "\x7d;",
  "",
  "// Per-environment table of class constructors.",
  "class Registry \x7b",
  " public:",
  "  static napi_status Get(napi_env env, Registry** result) \x7b",
  "    void* data = nullptr;",
  "    WEBIDL_NAPI_RETURN_IF_FAILED(napi_get_instance_data(env, &data));",
  "    if (data == nullptr) \x7b",
  "      Registry* registry = new Registry();",
  "      napi_status status = napi_set_instance_data(",
  "          env, registry,",
  "          [](napi_env env, void* data, void* hint) \x7b",
  "            Registry* registry = static_cast<Registry*>(data);",
  "            for (auto& entry : registry->constructors_)",
  "              napi_delete_reference(env, entry.second);",
  "            delete registry;",
  "          \x7d,",
  "          nullptr);",
  "      if (status != napi_ok) \x7b",
  "        delete registry;",
  "        return status;",
  "      \x7d",
  "      data = registry;",
  "    \x7d",
  "    *result = static_cast<Registry*>(data);",
  "    return napi_ok;",
  "  \x7d",
  "",
  "  napi_status Set(napi_env env, const char* name, napi_value constructor) \x7b",
  "    napi_ref ref;",
  "    WEBIDL_NAPI_RETURN_IF_FAILED(napi_create_reference(env, constructor, 1, &ref));",
  "    for (auto& entry : constructors_) \x7b",
  "      if (entry.first == name) \x7b",
  "        napi_delete_reference(env, entry.second);",
  "        entry.second = ref;",
  "        return napi_ok;",
  "      \x7d",
  "    \x7d",
  "    constructors_.emplace_back(name, ref);",
  "    return napi_ok;",
  "  \x7d",
  "",
  "  napi_status Lookup(napi_env env, const char* name, napi_value* result) \x7b",
  "    for (auto& entry : constructors_)",
  "      if (entry.first == name)",
  "        return napi_get_reference_value(env, entry.second, result);",
  "    return napi_generic_failure;",
  "  \x7d",
  "",
  " private:",
  "  std::vector<std::pair<std::string, napi_ref>> constructors_;",
  "\x7d;",
  "",
  "inline napi_status GetInstance(napi_env env,",
  "                               napi_value js_object,",
  "                               Instance** result) \x7b",
  "  void* data = nullptr;",
  "  WEBIDL_NAPI_RETURN_IF_FAILED(napi_unwrap(env, js_object, &data));",
  "  *result = static_cast<Instance*>(data);",
  "  return napi_ok;",
  "\x7d",
  "",
  "\x7d  // end of namespace internal",
  "",
  "// Records the class constructor for `name` so native code can construct",
  "// instances of it.",
  "inline napi_status RegisterConstructor(napi_env env,",
  "                                       const char* name,",
  "                                       napi_value constructor) \x7b",
  "  internal::Registry* registry;",
  "  WEBIDL_NAPI_RETURN_IF_FAILED(internal::Registry::Get(env, &registry));",
  "  return registry->Set(env, name, constructor);",
  "\x7d",
  "",
  "inline napi_status CheckConstructCall(napi_env env,",
  "                                      napi_callback_info info,",
  "                                      const char* name) \x7b",
  "  napi_value new_target;",
  "  WEBIDL_NAPI_RETURN_IF_FAILED(napi_get_new_target(env, info, &new_target));",
  "  if (new_target == nullptr) \x7b",
  "    return ThrowTypeError(env, std::string(\"Class constructor \") + name +",
  "                                   \" cannot be invoked without 'new'\");",
  "  \x7d",
  "  return napi_ok;",
  "\x7d",
  "",
  "// Associates `native` with `js_object`. Ownership of `native` passes to the",
  "// host object, also on failure.",
  "template <typename T>",
  "inline napi_status Wrap(napi_env env,",
  "                        napi_value js_object,",
  "                        const napi_type_tag* tag,",
  "                        T* native,",
  "                        size_t slot_count) \x7b",
  "  internal::Instance* instance = new internal::Instance\x7b",
  "      native, &internal::Destroy<T>, std::vector<napi_ref>(slot_count, nullptr)\x7d;",
  "  napi_status status = napi_wrap(env, js_object, instance,",
  "                                 internal::FinalizeInstance, nullptr, nullptr);",
  "  if (status != napi_ok) \x7b",
  "    delete native;",
  "    delete instance;",
  "    return status;",
  "  \x7d",
  "  return napi_type_tag_object(env, js_object, tag);",
  "\x7d",
  "",
  "// Retrieves the native instance wrapped in `js_object`, throwing a TypeError",
  "// if it was not constructed as `name`.",
  "template <typename T>",
  "inline napi_status Unwrap(napi_env env,",
  "                          napi_value js_object,",
  "                          const napi_type_tag* tag,",
  "                          const char* name,",
  "                          T** result) \x7b",
  "  napi_valuetype type;",
  "  WEBIDL_NAPI_RETURN_IF_FAILED(napi_typeof(env, js_object, &type));",
  "  bool tagged = false;",
  "  if (type == napi_object) \x7b",
  "    WEBIDL_NAPI_RETURN_IF_FAILED(",
  "        napi_check_object_type_tag(env, js_object, tag, &tagged));",
  "  \x7d",
  "  if (!tagged) \x7b",
  "    return ThrowTypeError(env, std::string(\"Value is not an instance of \") + name);",
  "  \x7d",
  "  internal::Instance* instance;",
  "  WEBIDL_NAPI_RETURN_IF_FAILED(internal::GetInstance(env, js_object, &instance));",
  "  *result = static_cast<T*>(instance->native);",
  "  return napi_ok;",
  "\x7d",
  "",
  "// Takes the native pointer handed to a constructor by NewExternalInstance().",
  "// Leaves `*result` untouched unless the call is an external construction.",
  "template <typename T>",
  "inline napi_status TakeExternal(napi_env env,",
  "                                size_t argc,",
  "                                napi_value* argv,",
  "                                const napi_type_tag* tag,",
  "                                T** result) \x7b",
  "  if (argc != 1) return napi_ok;",
  "  napi_valuetype type;",
  "  WEBIDL_NAPI_RETURN_IF_FAILED(napi_typeof(env, argv[0], &type));",
  "  if (type != napi_external) return napi_ok;",
  "",
  "  bool tagged = false;",
  "  WEBIDL_NAPI_RETURN_IF_FAILED(",
  "      napi_check_object_type_tag(env, argv[0], tag, &tagged));",
  "  if (!tagged) return ThrowTypeError(env, \"Illegal constructor\");",
  "",
  "  void* data = nullptr;",
  "  WEBIDL_NAPI_RETURN_IF_FAILED(napi_get_value_external(env, argv[0], &data));",
  "  internal::ExternalInstance* external =",
  "      static_cast<internal::ExternalInstance*>(data);",
  "  if (external == nullptr || external->adopted) \x7b",
  "    return ThrowTypeError(env, \"Illegal constructor\");",
  "  \x7d",
  "  external->adopted = true;",
  "  *result = static_cast<T*>(external->native);",
  "  return napi_ok;",
  "\x7d",
  "",
  "// Constructs a host instance of class `name` around an existing native",
  "// instance, bypassing argument conversion. Takes ownership of `native`.",
  "template <typename T>",
  "inline napi_status NewExternalInstance(napi_env env,",
  "                                       const char* name,",
  "                                       const napi_type_tag* tag,",
  "                                       T* native,",
  "                                       napi_value* result) \x7b",
  "  internal::ExternalInstance external\x7bnative, false\x7d;",
  "  napi_status status = napi_ok;",
  "  napi_value constructor;",
  "  napi_value js_external;",
  "",
  "  internal::Registry* registry;",
  "  status = internal::Registry::Get(env, &registry);",
  "  if (status == napi_ok) status = registry->Lookup(env, name, &constructor);",
  "  if (status == napi_ok)",
  "    status = napi_create_external(env, &external, nullptr, nullptr, &js_external);",
  "  if (status == napi_ok) status = napi_type_tag_object(env, js_external, tag);",
  "  if (status == napi_ok)",
  "    status = napi_new_instance(env, constructor, 1, &js_external, result);",
  "",
  "  if (!external.adopted) delete native;",
  "  return status;",
  "\x7d",
  ""]

/-- Cached members, and the end of the guard. -/
def headerSlots : List String := [
  "////////////////////////////////////////////////////////////////////////////////",
  "// Same-object slots",
  "////////////////////////////////////////////////////////////////////////////////",
  "",
  "// Sets `*result` to the cached value of `slot`, or nullptr if there is none.",
  "inline napi_status GetSameObject(napi_env env,",
  "                                 napi_value js_object,",
  "                                 size_t slot,",
  "                                 napi_value* result) \x7b",
  "  internal::Instance* instance;",
  "  WEBIDL_NAPI_RETURN_IF_FAILED(internal::GetInstance(env, js_object, &instance));",
  "  *result = nullptr;",
  "  if (slot >= instance->slots.size() || instance->slots[slot] == nullptr)",
  "    return napi_ok;",
  "  return napi_get_reference_value(env, instance->slots[slot], result);",
  "\x7d",
  "",
  "inline napi_status SetSameObject(napi_env env,",
  "                                 napi_value js_object,",
  "                                 size_t slot,",
  "                                 napi_value value) \x7b",
  "  internal::Instance* instance;",
  "  WEBIDL_NAPI_RETURN_IF_FAILED(internal::GetInstance(env, js_object, &instance));",
  "  if (slot >= instance->slots.size()) return napi_invalid_arg;",
  "  if (instance->slots[slot] != nullptr) \x7b",
  "    WEBIDL_NAPI_RETURN_IF_FAILED(napi_delete_reference(env, instance->slots[slot]));",
  "    instance->slots[slot] = nullptr;",
  "  \x7d",
  "  return napi_create_reference(env, value, 1, &instance->slots[slot]);",
  "\x7d",
  "",
  "inline napi_status ClearSameObject(napi_env env,",
  "                                   napi_value js_object,",
  "                                   size_t slot) \x7b",
  "  internal::Instance* instance;",
  "  WEBIDL_NAPI_RETURN_IF_FAILED(internal::GetInstance(env, js_object, &instance));",
  "  if (slot >= instance->slots.size() || instance->slots[slot] == nullptr)",
  "    return napi_ok;",
  "  napi_status status = napi_delete_reference(env, instance->slots[slot]);",
  "  instance->slots[slot] = nullptr;",
  "  return status;",
  "\x7d",
  "",
  "\x7d  // end of namespace WebIdlNapi",
  "",
  "#endif  // WEBIDL_NAPI_H_"]

/-- The text of the header. -/
def supportHeader : String :=
  codeText (headerPreamble ++ headerErrors ++ headerScalars ++ headerSequences ++ headerPromises ++
    headerSignatures ++ headerWrapping ++ headerSlots)

end IdlBindings
